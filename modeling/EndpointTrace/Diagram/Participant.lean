import EndpointTrace.CallGraph.Oracle
import EndpointTrace.Text.Character
import EndpointTrace.Text.Casing

/-!
# Participants of a sequence diagram

A participant id is built from the last segment of the context and the name, both
reduced to letters, digits and underscores with no underscore at either end.  An id
without a dot that would be read as a keyword, or as the external caller, gets an
underscore at its end; no reduced text ends in one, so this never makes two ids
equal.
-/

namespace EndpointTrace
namespace Diagram

def client : List Char := "Client".toList

/-- Stands for an identity of which no usable character is left. -/
def placeholder : List Char := "Unknown".toList

def keywords : List (List Char) :=
  ["participant", "actor", "as", "loop", "alt", "else", "opt", "par", "and", "rect",
    "critical", "break", "end", "note", "over", "left", "right", "of", "activate",
    "deactivate", "autonumber", "title", "box", "link", "links", "create",
    "destroy"].map String.toList

def isIdChar (c : Char) : Bool :=
  Text.isAlphanumeric c || c == '_'

def trimUnderscores (cs : List Char) : List Char :=
  ((cs.dropWhile (· == '_')).reverse.dropWhile (· == '_')).reverse

def sanitize (cs : List Char) : List Char :=
  trimUnderscores (cs.map fun c => if isIdChar c then c else '_')

def lastSegment (cs : List Char) : List Char :=
  (cs.reverse.takeWhile fun c => c != '.' && c != '$').reverse

def isReserved (id : List Char) : Bool :=
  id == client || keywords.contains (id.map Text.asciiLower)

def unreserved (id : List Char) : List Char :=
  if isReserved id then id ++ ['_'] else id

/-- The id that a context and a name give, before and after reserved words are
escaped. -/
def participantChars (context name : List Char) : List Char :=
  match sanitize (lastSegment context), sanitize name with
  | [], [] => placeholder
  | [], name => unreserved name
  | context, [] => unreserved context
  | context, name => context ++ '.' :: name

def participant (identity : Identity) : String :=
  String.ofList (participantChars identity.context.toList identity.name.toList)

/-- Message text on one line, free of the characters that end or comment a message. -/
def labelChars (cs : List Char) : List Char :=
  Text.trim (cs.map fun c => if c ∈ ['\n', '\r', ';', '#'] then ' ' else c)

def label (text : String) : String :=
  String.ofList (labelChars text.toList)

end Diagram
end EndpointTrace
