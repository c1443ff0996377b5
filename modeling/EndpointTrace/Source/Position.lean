import EndpointTrace.Source.FilePath

/-!
# Positions, ranges and locations

A position is a zero-based line and a zero-based byte column; positions are ordered
by line, then by column.  A range holds both of its ends.  A location is a file with
a position in it; printed locations count lines and columns from one.
-/

namespace EndpointTrace

structure Position where
  line : Nat
  character : Nat
  deriving DecidableEq, Hashable, Repr, Inhabited

namespace Position

instance : LE Position where
  le a b := a.line < b.line ∨ (a.line = b.line ∧ a.character ≤ b.character)

instance : LT Position where
  lt a b := a.line < b.line ∨ (a.line = b.line ∧ a.character < b.character)

instance (a b : Position) : Decidable (a ≤ b) :=
  inferInstanceAs (Decidable (_ ∨ _))

instance (a b : Position) : Decidable (a < b) :=
  inferInstanceAs (Decidable (_ ∨ _))

theorem le_def {a b : Position} :
    a ≤ b ↔ a.line < b.line ∨ (a.line = b.line ∧ a.character ≤ b.character) :=
  Iff.rfl

theorem lt_def {a b : Position} :
    a < b ↔ a.line < b.line ∨ (a.line = b.line ∧ a.character < b.character) :=
  Iff.rfl

protected theorem le_refl (a : Position) : a ≤ a := by
  simp [le_def]

protected theorem le_trans {a b c : Position} (ab : a ≤ b) (bc : b ≤ c) : a ≤ c := by
  rw [le_def] at *
  omega

protected theorem not_lt {a b : Position} : ¬ a < b ↔ b ≤ a := by
  simp only [le_def, lt_def]
  omega

end Position

structure Range where
  start : Position
  stop : Position
  deriving DecidableEq, Repr, Inhabited

namespace Range

def contains (range : Range) (position : Position) : Bool :=
  range.start ≤ position && position ≤ range.stop

/-- How many line ends the range spans; zero for a reversed range. -/
def lineSpan (range : Range) : Nat :=
  range.stop.line - range.start.line

end Range

structure Location where
  file : FilePath
  position : Position
  deriving Repr, Inhabited

namespace Location

def toText (location : Location) : String :=
  location.file.text ++ ":" ++ toString (location.position.line + 1) ++ ":"
    ++ toString (location.position.character + 1)

end Location

end EndpointTrace
