/-!
# Lexical views of a source text

A scan from left to right puts every character of a text into a region: code, a
comment, or a literal.  Views of the text hide the characters of some regions
behind spaces, one space for every byte, and leave line feeds alone; so an offset
into a view means the same place in the text and in every other view.
-/

namespace EndpointTrace
namespace LexicalView

inductive Region where
  | code
  | lineComment
  | blockComment
  | literal (quote : Char)
  deriving DecidableEq, Repr

/-- What the scan knows between two characters. -/
inductive Mode where
  | code
  | lineComment
  | blockComment
  | literal (quote : Char) (escaped : Bool)
  deriving DecidableEq, Repr

namespace Mode

def afterCode (c : Char) : Mode :=
  if c = '"' ∨ c = '\'' then literal c false else code

/-- The mode after a character of a literal: its own quote or a line feed ends it,
unless the character is escaped. -/
def afterLiteral (quote : Char) (escaped : Bool) (c : Char) : Mode :=
  if escaped then literal quote false
  else if c = '\\' then literal quote true
  else if c = quote ∨ c = '\n' then code
  else literal quote false

end Mode

/-- The text with the region of each character. -/
def scan : Mode → List Char → List (Region × Char)
  | _, [] => []
  | .code, '/' :: '/' :: rest =>
      (.lineComment, '/') :: (.lineComment, '/') :: scan .lineComment rest
  | .code, '/' :: '*' :: rest =>
      (.blockComment, '/') :: (.blockComment, '*') :: scan .blockComment rest
  | .code, c :: rest => (.code, c) :: scan (.afterCode c) rest
  | .lineComment, c :: rest =>
      if c = '\n' then (.code, c) :: scan .code rest
      else (.lineComment, c) :: scan .lineComment rest
  | .blockComment, '*' :: '/' :: rest =>
      (.blockComment, '*') :: (.blockComment, '/') :: scan .code rest
  | .blockComment, c :: rest => (.blockComment, c) :: scan .blockComment rest
  | .literal quote escaped, c :: rest =>
      (.literal quote, c) :: scan (.afterLiteral quote escaped c) rest

namespace Region

def isComment : Region → Bool
  | lineComment | blockComment => true
  | code | literal _ => false

/-- Whether a character is content of a literal and not one of its own quotes. -/
def isContent : Region → Char → Bool
  | literal quote, c => c != quote
  | _, _ => false

end Region

/-- Spaces of the same size, or the line feed itself. -/
def blank (c : Char) : List Char :=
  if c = '\n' then [c] else List.replicate c.utf8Size ' '

def view (hidden : Region → Char → Bool) (cs : List Char) : List Char :=
  (scan .code cs).flatMap fun (region, c) => if hidden region c then blank c else [c]

def blankComments (cs : List Char) : List Char :=
  view (fun region _ => region.isComment) cs

def maskLiterals (cs : List Char) : List Char :=
  view Region.isContent cs

def codeOnly (cs : List Char) : List Char :=
  view (fun region c => region.isComment || region.isContent c) cs

end LexicalView
end EndpointTrace
