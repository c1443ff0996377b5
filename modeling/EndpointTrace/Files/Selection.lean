import EndpointTrace.Files.Glob
import EndpointTrace.Text.Character

/-!
# Lines of patterns

Files that say what to ignore hold one pattern on a line, and the last pattern that
matches a path decides.  A pattern with a slash is anchored, one without matches at any
depth; a slash at the end restricts it to directories, and an exclamation mark in front
reverses it.  The same kind of line, with its sense reversed, selects files for a listing.
-/

namespace EndpointTrace

structure PatternRule where
  reversed : Bool
  onlyDirectories : Bool
  glob : Glob

namespace PatternRule

/-- The end of a line counts up to its last character that is no white space, unless that
white space is escaped. -/
def trimLine (line : List Char) : List Char :=
  match line.reverse with
  | ' ' :: '\\' :: _ => line
  | _ => Text.trimEnd line

def splitSlash (line : List Char) : List Char × Bool :=
  match line.reverse with
  | '/' :: '\\' :: rest => (rest.reverse, true)
  | '/' :: rest => (rest.reverse, true)
  | _ => (line, false)

def splitSigns (line : List Char) : Bool × Bool × List Char :=
  match line with
  | '\\' :: '!' :: rest => (false, false, '!' :: rest)
  | '\\' :: '#' :: rest => (false, false, '#' :: rest)
  | '!' :: '/' :: rest => (true, true, rest)
  | '!' :: rest => (true, false, rest)
  | '/' :: rest => (false, true, rest)
  | rest => (false, false, rest)

def startsAnywhere (pattern : List Char) : Bool :=
  pattern = ['*', '*'] || ['*', '*', '/'].isPrefixOf pattern

/-- The glob for whole paths: a pattern without slash may follow any directories, and one
that ends in two stars means what is inside a directory and not the directory. -/
def wholePath (anchored : Bool) (pattern : List Char) : List Char :=
  let pattern :=
    if !anchored && !pattern.contains '/' && !startsAnywhere pattern then
      ['*', '*', '/'] ++ pattern
    else
      pattern
  if ['/', '*', '*'].isSuffixOf pattern then pattern ++ ['/', '*'] else pattern

def ofLine? (lenient : Bool) (line : List Char) : Option (Option PatternRule) :=
  if line.head? = some '#' then
    some none
  else
    match trimLine line with
    | [] => some none
    | line =>
        let (reversed, anchored, pattern) := splitSigns line
        let (pattern, onlyDirectories) := splitSlash pattern
        (Glob.ofPattern? lenient (wholePath anchored pattern)).map fun glob =>
          some ⟨reversed, onlyDirectories, glob⟩

def applies (rule : PatternRule) (names : List String) (isDirectory : Bool) : Bool :=
  (!rule.onlyDirectories || isDirectory) && rule.glob.accepts names

end PatternRule

inductive Verdict where
  | ignored
  | kept
  deriving DecidableEq, Repr

namespace Verdict

def ofRules (rules : List PatternRule) (names : List String) (isDirectory : Bool) :
    Option Verdict :=
  (rules.reverse.find? fun rule => rule.applies names isDirectory).map fun rule =>
    if rule.reversed then kept else ignored

end Verdict

structure Selection where
  rule : Option PatternRule

namespace Selection

def ofGlob? (glob : String) : Option Selection :=
  (PatternRule.ofLine? false glob.toList).map Selection.mk

/-- A path that the rule matches is selected, or excluded by a reversed rule.  A rule that
selects excludes all other files. -/
def verdict (selection : Selection) (names : List String) (isDirectory : Bool) :
    Option Verdict :=
  match selection.rule with
  | none => none
  | some rule =>
      if rule.applies names isDirectory then
        some (if rule.reversed then .ignored else .kept)
      else if !rule.reversed && !isDirectory then
        some .ignored
      else
        none

end Selection

end EndpointTrace
