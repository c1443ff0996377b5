import EndpointTrace.Source.Position
import EndpointTrace.Text.Bytes

/-!
# Text addressed by line and column

A document knows where its lines start.  Every position names an offset that lies
between two characters: a column past the end of its line means the end of the
line, a line past the last means the end of the text, and a column inside a
character means the place before it.
-/

namespace EndpointTrace

/-- Offsets at which lines start, when the text itself starts at `offset` of a line
that was counted before. -/
def lineStartsAfter (offset : Nat) : List Char → List Nat
  | [] => []
  | c :: rest =>
      let next := offset + c.utf8Size
      if c = '\n' then next :: lineStartsAfter next rest else lineStartsAfter next rest

structure Document where
  chars : List Char
  lineStarts : List Nat
  size : Nat
  lineStarts_eq : lineStarts = 0 :: lineStartsAfter 0 chars
  size_eq : size = Text.byteSize chars

namespace Document

def ofChars (chars : List Char) : Document where
  chars := chars
  lineStarts := 0 :: lineStartsAfter 0 chars
  size := Text.byteSize chars
  lineStarts_eq := rfl
  size_eq := rfl

def ofString (text : String) : Document :=
  ofChars text.toList

def text (document : Document) : String :=
  String.ofList document.chars

/-- Number of lines; a text that ends in a line feed has an empty last line. -/
def lineCount (document : Document) : Nat :=
  document.lineStarts.length

def offsetOf (document : Document) (position : Position) : Nat :=
  match document.lineStarts[position.line]? with
  | none => document.size
  | some lineStart =>
      let lineEnd :=
        match document.lineStarts[position.line + 1]? with
        | some next => next - 1
        | none => document.size
      Text.floorBoundary (min (lineStart + position.character) lineEnd) document.chars

def textIn (document : Document) (range : Range) : List Char :=
  Text.slice (document.offsetOf range.start) (document.offsetOf range.stop) document.chars

end Document

end EndpointTrace
