import EndpointTrace.Text.CaseTable

/-!
# Lower and upper case

Full case mapping, independent of language.  A capital sigma at the end of a word
becomes the final sigma; everything else is mapped character by character.
-/

namespace EndpointTrace
namespace Text

def asciiLower (c : Char) : Char :=
  if 'A' ≤ c ∧ c ≤ 'Z' then Char.ofNat (c.toNat + 32) else c

def asciiUpper (c : Char) : Char :=
  if 'a' ≤ c ∧ c ≤ 'z' then Char.ofNat (c.toNat - 32) else c

def equalIgnoringAsciiCase (cs ds : List Char) : Bool :=
  cs.map asciiLower == ds.map asciiLower

def lowerChar (c : Char) : List Char :=
  if c.toNat < 128 then
    [asciiLower c]
  else
    match CaseTable.lowerExpansion.lookup c.toNat with
    | some image => image.map Char.ofNat
    | none => [(CaseTable.lower.image? c).getD c]

def upperChar (c : Char) : List Char :=
  if c.toNat < 128 then
    [asciiUpper c]
  else
    match CaseTable.upperExpansion.lookup c.toNat with
    | some image => image.map Char.ofNat
    | none => [(CaseTable.upper.image? c).getD c]

/-- Whether a cased letter comes first once case-ignorable characters are skipped. -/
def meetsCased (cs : List Char) : Bool :=
  match cs.dropWhile CaseTable.caseIgnorable.contains with
  | [] => false
  | c :: _ => CaseTable.cased.contains c

/-- Lower case of `after`, where `before` holds the characters already passed, the
nearest first. -/
def lowerFrom (before : List Char) : List Char → List Char
  | [] => []
  | c :: after =>
      let image :=
        if c = 'Σ' then
          if meetsCased before && !meetsCased after then ['ς'] else ['σ']
        else
          lowerChar c
      image ++ lowerFrom (c :: before) after

def lower (cs : List Char) : List Char :=
  lowerFrom [] cs

def capitalize : List Char → List Char
  | [] => []
  | c :: rest => upperChar c ++ rest

end Text
end EndpointTrace
