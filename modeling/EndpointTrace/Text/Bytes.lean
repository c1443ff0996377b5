/-!
# Offsets into the UTF-8 form of a text

A text is a list of characters, and its offsets count the bytes of its UTF-8 form.
Cutting at an offset that falls inside a character cuts before that character, so
both pieces are texts again.
-/

namespace EndpointTrace
namespace Text

def byteSize : List Char → Nat
  | [] => 0
  | c :: rest => c.utf8Size + byteSize rest

/-- The characters that lie completely in the first `n` bytes. -/
def takeBytes (n : Nat) : List Char → List Char
  | [] => []
  | c :: rest => if c.utf8Size ≤ n then c :: takeBytes (n - c.utf8Size) rest else []

/-- What follows the characters that lie completely in the first `n` bytes. -/
def dropBytes (n : Nat) : List Char → List Char
  | [] => []
  | c :: rest => if c.utf8Size ≤ n then dropBytes (n - c.utf8Size) rest else c :: rest

/-- Whether an offset lies between two characters, or at an end of the text. -/
def isBoundary (n : Nat) (cs : List Char) : Bool :=
  byteSize (takeBytes n cs) == n

/-- The last boundary that is not after `n`. -/
def floorBoundary (n : Nat) (cs : List Char) : Nat :=
  byteSize (takeBytes n cs)

/-- The text between two offsets, empty when they are in the wrong order. -/
def slice (start stop : Nat) (cs : List Char) : List Char :=
  takeBytes (stop - start) (dropBytes start cs)

/-!
## Cutting and joining
-/

theorem takeBytes_append_dropBytes (n : Nat) (cs : List Char) :
    takeBytes n cs ++ dropBytes n cs = cs := by
  induction cs generalizing n with
  | nil =>
      rfl
  | cons c rest ih =>
      by_cases fits : c.utf8Size ≤ n
      · simp [takeBytes, dropBytes, fits, ih]
      · simp [takeBytes, dropBytes, fits]

theorem byteSize_append (cs ds : List Char) :
    byteSize (cs ++ ds) = byteSize cs + byteSize ds := by
  induction cs with
  | nil =>
      simp [byteSize]
  | cons c rest ih =>
      simp [byteSize, ih, Nat.add_assoc]

theorem byteSize_takeBytes_le (n : Nat) (cs : List Char) :
    byteSize (takeBytes n cs) ≤ n := by
  induction cs generalizing n with
  | nil =>
      simp [takeBytes, byteSize]
  | cons c rest ih =>
      by_cases fits : c.utf8Size ≤ n
      · have := ih (n - c.utf8Size)
        simp only [takeBytes, fits, if_true, byteSize]
        omega
      · simp [takeBytes, fits, byteSize]

theorem takeBytes_byteSize_append (cs ds : List Char) :
    takeBytes (byteSize cs) (cs ++ ds) = cs := by
  induction cs with
  | nil =>
      cases ds with
      | nil =>
          rfl
      | cons d rest =>
          have := d.utf8Size_pos
          simp [byteSize, takeBytes]
          omega
  | cons c rest ih =>
      simp [byteSize, takeBytes, ih]

theorem dropBytes_byteSize_append (cs ds : List Char) :
    dropBytes (byteSize cs) (cs ++ ds) = ds := by
  have whole := takeBytes_append_dropBytes (byteSize cs) (cs ++ ds)
  rw [takeBytes_byteSize_append] at whole
  exact List.append_cancel_left whole

end Text
end EndpointTrace
