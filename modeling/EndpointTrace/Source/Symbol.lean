import EndpointTrace.Source.Position

/-!
# Declared symbols

The declarations of a file as a tree: types with their members below them.  In a
well-formed tree the name of a declaration lies inside the declaration, what is declared
inside it follows its name, and declarations side by side do not overlap.
-/

namespace EndpointTrace

inductive SymbolKind where
  | classType
  | interfaceType
  | enumType
  | recordType
  | method
  | constructor
  | field
  deriving DecidableEq, Repr, Inhabited

namespace SymbolKind

def isType : SymbolKind → Bool
  | classType | interfaceType | enumType | recordType => true
  | method | constructor | field => false

def isCallable : SymbolKind → Bool
  | method | constructor => true
  | _ => false

end SymbolKind

/-- One declaration: the full range holds modifiers and body, the selection range is
the name token. -/
structure Symbol where
  name : String
  kind : SymbolKind
  fullRange : Range
  selectionRange : Range
  children : List Symbol
  deriving Repr, Inhabited

/-!
## Well-formed symbols
-/

namespace Symbol

inductive WellFormed : Symbol → Prop
  | mk {symbol : Symbol}
      (before : symbol.fullRange.start ≤ symbol.selectionRange.start)
      (named : symbol.selectionRange.start ≤ symbol.selectionRange.stop)
      (behind : symbol.selectionRange.stop ≤ symbol.fullRange.stop)
      (inside : ∀ child ∈ symbol.children,
        symbol.selectionRange.stop ≤ child.fullRange.start ∧
          child.fullRange.stop ≤ symbol.fullRange.stop)
      (ordered : symbol.children.Pairwise fun a b => a.fullRange.stop ≤ b.fullRange.start)
      (children : ∀ child ∈ symbol.children, child.WellFormed) : symbol.WellFormed

/-- The symbols of a file, or those inside a type: well formed, in order and apart. -/
structure Siblings (symbols : List Symbol) : Prop where
  ordered : symbols.Pairwise fun a b => a.fullRange.stop ≤ b.fullRange.start
  wellFormed : ∀ symbol ∈ symbols, symbol.WellFormed

theorem WellFormed.selection_le {symbol : Symbol} (hformed : symbol.WellFormed) :
    symbol.selectionRange.start ≤ symbol.fullRange.stop := by
  cases hformed with
  | mk before named behind inside ordered children =>
      exact Position.le_trans named behind

theorem WellFormed.start_le_stop {symbol : Symbol} (hformed : symbol.WellFormed) :
    symbol.fullRange.start ≤ symbol.fullRange.stop := by
  cases hformed with
  | mk before named behind inside ordered children =>
      exact Position.le_trans before (Position.le_trans named behind)

theorem WellFormed.before_selection {symbol : Symbol} (hformed : symbol.WellFormed) :
    symbol.fullRange.start ≤ symbol.selectionRange.start := by
  cases hformed with
  | mk before named behind inside ordered children =>
      exact before

theorem WellFormed.child_inside {symbol child : Symbol} (hformed : symbol.WellFormed)
    (hchild : child ∈ symbol.children) :
    symbol.selectionRange.stop ≤ child.fullRange.start ∧
      child.fullRange.stop ≤ symbol.fullRange.stop := by
  cases hformed with
  | mk before named behind inside ordered children =>
      exact inside child hchild

theorem WellFormed.siblings {symbol : Symbol} (hformed : symbol.WellFormed) :
    Siblings symbol.children := by
  cases hformed with
  | mk before named behind inside ordered children =>
      exact ⟨ordered, children⟩

theorem WellFormed.of_no_children {symbol : Symbol}
    (hbefore : symbol.fullRange.start ≤ symbol.selectionRange.start)
    (hnamed : symbol.selectionRange.start ≤ symbol.selectionRange.stop)
    (hbehind : symbol.selectionRange.stop ≤ symbol.fullRange.stop)
    (hchildren : symbol.children = []) : symbol.WellFormed := by
  constructor
  · exact hbefore
  · exact hnamed
  · exact hbehind
  · intro child hchild
    rw [hchildren] at hchild
    cases hchild
  · rw [hchildren]
    exact List.Pairwise.nil
  · intro child hchild
    rw [hchildren] at hchild
    cases hchild

theorem Siblings.singleton {symbol : Symbol} (hformed : symbol.WellFormed) :
    Siblings [symbol] where
  ordered := List.pairwise_singleton _ _
  wellFormed := by
    intro other hother
    rw [List.mem_singleton.mp hother]
    exact hformed

theorem WellFormed.of_only_child {symbol child : Symbol} (hchild : child.WellFormed)
    (hchildren : symbol.children = [child])
    (hbefore : symbol.fullRange.start ≤ symbol.selectionRange.start)
    (hnamed : symbol.selectionRange.start ≤ symbol.selectionRange.stop)
    (hstart : symbol.selectionRange.stop ≤ child.fullRange.start)
    (hstop : child.fullRange.stop ≤ symbol.fullRange.stop) : symbol.WellFormed := by
  have hmembers := Siblings.singleton hchild
  rw [← hchildren] at hmembers
  constructor
  · exact hbefore
  · exact hnamed
  · exact Position.le_trans hstart (Position.le_trans hchild.start_le_stop hstop)
  · intro other hother
    rw [hchildren] at hother
    rw [List.mem_singleton.mp hother]
    exact ⟨hstart, hstop⟩
  · exact hmembers.ordered
  · exact hmembers.wellFormed

end Symbol
end EndpointTrace
