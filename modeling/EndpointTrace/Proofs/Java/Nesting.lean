import EndpointTrace.Java.Declared

/-!
# Nesting of declarations

The symbols of a source are well formed as soon as the nodes of its syntax tree nest: every
node lies inside the one around it, nodes side by side are in order, and the name of a
declaration comes before its body.
-/

namespace EndpointTrace

/-!
## Symbols between two positions
-/

namespace Symbol

/-- Well-formed symbols in order between two positions. -/
structure Between (start stop : Position) (symbols : List Symbol) : Prop extends
    Siblings symbols where
  inside : ∀ symbol ∈ symbols,
    start ≤ symbol.fullRange.start ∧ symbol.fullRange.stop ≤ stop

namespace Between

theorem nil (start stop : Position) : Between start stop [] where
  ordered := List.Pairwise.nil
  wellFormed := by
    intro symbol hsymbol
    cases hsymbol
  inside := by
    intro symbol hsymbol
    cases hsymbol

theorem singleton {start stop : Position} {symbol : Symbol} (hformed : symbol.WellFormed)
    (hstart : start ≤ symbol.fullRange.start) (hstop : symbol.fullRange.stop ≤ stop) :
    Between start stop [symbol] where
  toSiblings := .singleton hformed
  inside := by
    intro other hother
    rw [List.mem_singleton.mp hother]
    exact ⟨hstart, hstop⟩

theorem widen {start stop outerStart outerStop : Position} {symbols : List Symbol}
    (hbetween : Between start stop symbols) (houterStart : outerStart ≤ start)
    (houterStop : stop ≤ outerStop) :
    Between outerStart outerStop symbols where
  ordered := hbetween.ordered
  wellFormed := hbetween.wellFormed
  inside := by
    intro symbol hsymbol
    rcases hbetween.inside symbol hsymbol with ⟨hstart, hstop⟩
    exact ⟨Position.le_trans houterStart hstart, Position.le_trans hstop houterStop⟩

theorem append {start middle stop : Position} {first second : List Symbol}
    (hfirst : Between start middle first) (hsecond : Between middle stop second)
    (hstart : start ≤ middle) (hstop : middle ≤ stop) :
    Between start stop (first ++ second) where
  ordered := by
    apply List.pairwise_append.mpr
    refine ⟨hfirst.ordered, hsecond.ordered, ?_⟩
    intro a ha b hb
    exact Position.le_trans (hfirst.inside a ha).2 (hsecond.inside b hb).1
  wellFormed := by
    intro symbol hsymbol
    rcases List.mem_append.mp hsymbol with hmem | hmem
    · exact hfirst.wellFormed symbol hmem
    · exact hsecond.wellFormed symbol hmem
  inside := by
    intro symbol hsymbol
    rcases List.mem_append.mp hsymbol with hmem | hmem
    · exact (hfirst.widen (Position.le_refl start) hstop).inside symbol hmem
    · exact (hsecond.widen hstart (Position.le_refl stop)).inside symbol hmem

theorem wellFormed_around {symbol : Symbol}
    (hbefore : symbol.fullRange.start ≤ symbol.selectionRange.start)
    (hnamed : symbol.selectionRange.start ≤ symbol.selectionRange.stop)
    (hbehind : symbol.selectionRange.stop ≤ symbol.fullRange.stop)
    (hchildren : Between symbol.selectionRange.stop symbol.fullRange.stop symbol.children) :
    symbol.WellFormed :=
  .mk hbefore hnamed hbehind hchildren.inside hchildren.ordered hchildren.wellFormed

end Between

end Symbol

/-!
## Nested syntax trees
-/

namespace Java

/-- The name of a declaration, if it has one, lies in the declaration and ends where its
body may begin. -/
def NameEnds (range : Range) (bodyStart : Position) : Option Name → Prop
  | none => bodyStart = range.start
  | some name => range.start ≤ name.range.start ∧ name.range.start ≤ name.range.stop ∧
      name.range.stop = bodyStart

mutual

/-- The node reaches over the range, and what is inside it lies there in order. -/
def Node.Spans (range : Range) : Node → Prop
  | .typeDecl _ own name body =>
      own = range ∧ ∃ bodyStart, NameEnds range bodyStart name ∧
        NodesInOrder bodyStart range.stop body
  | .callable _ own name body =>
      own = range ∧ ∃ bodyStart, NameEnds range bodyStart name ∧
        NodesInOrder bodyStart range.stop body
  | .field own _ names values =>
      own = range ∧
        (∀ name ∈ names, range.start ≤ name.range.start ∧
          name.range.start ≤ name.range.stop ∧ name.range.stop ≤ range.stop) ∧
        NodesInOrder range.start range.stop values
  | .enumMembers members => NodesInOrder range.start range.stop members
  | .invocation own _ _ children => own = range ∧ NodesInOrder range.start range.stop children
  | .other children => NodesInOrder range.start range.stop children

def NodesInOrder (start stop : Position) : List Node → Prop
  | [] => start ≤ stop
  | node :: rest => ∃ range : Range, start ≤ range.start ∧ node.Spans range ∧
      NodesInOrder range.stop stop rest

end

theorem NameEnds.start_le {range : Range} {bodyStart : Position} {name : Option Name}
    (hname : NameEnds range bodyStart name) : range.start ≤ bodyStart := by
  cases name with
  | none =>
      rw [show bodyStart = range.start from hname]
      exact Position.le_refl _
  | some name =>
      rcases hname with ⟨hstart, hordered, hstop⟩
      rw [← hstop]
      exact Position.le_trans hstart hordered

mutual

theorem Node.Spans.start_le_stop {range : Range} :
    (node : Node) → node.Spans range → range.start ≤ range.stop
  | .typeDecl _ _ _ body, hspans => by
      rcases hspans with ⟨_, bodyStart, hname, hbody⟩
      exact Position.le_trans hname.start_le (NodesInOrder.start_le_stop body hbody)
  | .callable _ _ _ body, hspans => by
      rcases hspans with ⟨_, bodyStart, hname, hbody⟩
      exact Position.le_trans hname.start_le (NodesInOrder.start_le_stop body hbody)
  | .field _ _ _ values, hspans => NodesInOrder.start_le_stop values hspans.2.2
  | .enumMembers members, hspans => NodesInOrder.start_le_stop members hspans
  | .invocation _ _ _ children, hspans => NodesInOrder.start_le_stop children hspans.2
  | .other children, hspans => NodesInOrder.start_le_stop children hspans

theorem NodesInOrder.start_le_stop {start stop : Position} :
    (nodes : List Node) → NodesInOrder start stop nodes → start ≤ stop
  | [], hordered => hordered
  | node :: rest, hordered => by
      rcases hordered with ⟨range, hstart, hspans, hrest⟩
      exact Position.le_trans hstart
        (Position.le_trans (Node.Spans.start_le_stop node hspans)
          (NodesInOrder.start_le_stop rest hrest))

end

/-!
## The symbols of a nested tree
-/

theorem between_type {kind : SymbolKind} {range : Range} {name : Name} {bodyStart : Position}
    {members : List Symbol} (hname : NameEnds range bodyStart (some name))
    (hmembers : Symbol.Between bodyStart range.stop members) (hstop : bodyStart ≤ range.stop) :
    Symbol.Between range.start range.stop [⟨name.text, kind, range, name.range, members⟩] := by
  rcases hname with ⟨hstart, hordered, rfl⟩
  apply Symbol.Between.singleton
  · exact Symbol.Between.wellFormed_around hstart hordered hstop hmembers
  · exact Position.le_refl _
  · exact Position.le_refl _

theorem between_leaf {kind : SymbolKind} {range : Range} {name : Name}
    (hstart : range.start ≤ name.range.start)
    (hordered : name.range.start ≤ name.range.stop) (hstop : name.range.stop ≤ range.stop) :
    Symbol.Between range.start range.stop [⟨name.text, kind, range, name.range, []⟩] := by
  apply Symbol.Between.singleton
  · exact Symbol.WellFormed.of_no_children hstart hordered hstop rfl
  · exact Position.le_refl _
  · exact Position.le_refl _

mutual

/-- What a node declares lies in its range, whether it stands in a type or not. -/
theorem between_of {range : Range} : (node : Node) → node.Spans range →
    Symbol.Between range.start range.stop (typesOf node) ∧
      Symbol.Between range.start range.stop (membersOf node)
  | .typeDecl _ _ none _, _ => ⟨.nil _ _, .nil _ _⟩
  | .typeDecl _ _ (some _) body, hspans => by
      rcases hspans with ⟨rfl, bodyStart, hname, hbody⟩
      have hmembers := (between_in body hbody).2
      have hstop := NodesInOrder.start_le_stop body hbody
      exact ⟨between_type hname hmembers hstop, between_type hname hmembers hstop⟩
  | .callable _ _ none body, hspans => by
      rcases hspans with ⟨rfl, bodyStart, hname, hbody⟩
      exact ⟨(between_in body hbody).1.widen hname.start_le (Position.le_refl _), .nil _ _⟩
  | .callable _ _ (some _) body, hspans => by
      rcases hspans with ⟨rfl, bodyStart, hname, hbody⟩
      refine ⟨(between_in body hbody).1.widen hname.start_le (Position.le_refl _), ?_⟩
      rcases hname with ⟨hstart, hordered, rfl⟩
      exact between_leaf hstart hordered (NodesInOrder.start_le_stop body hbody)
  | .field _ _ [] values, hspans => ⟨(between_in values hspans.2.2).1, .nil _ _⟩
  | .field _ _ (name :: _) values, hspans => by
      rcases hspans with ⟨rfl, hnames, hvalues⟩
      rcases hnames name List.mem_cons_self with ⟨hstart, hordered, hstop⟩
      exact ⟨(between_in values hvalues).1, between_leaf hstart hordered hstop⟩
  | .enumMembers members, hspans => between_in members hspans
  | .invocation _ _ _ children, hspans => ⟨(between_in children hspans.2).1, .nil _ _⟩
  | .other children, hspans => ⟨(between_in children hspans).1, .nil _ _⟩

theorem between_in {start stop : Position} : (nodes : List Node) →
    NodesInOrder start stop nodes →
    Symbol.Between start stop (typesIn nodes) ∧ Symbol.Between start stop (membersIn nodes)
  | [], _ => ⟨.nil _ _, .nil _ _⟩
  | node :: rest, hordered => by
      rcases hordered with ⟨range, hstart, hspans, hrest⟩
      have hnode := between_of node hspans
      have hthere := Position.le_trans hstart (Node.Spans.start_le_stop node hspans)
      have hstop := NodesInOrder.start_le_stop rest hrest
      constructor
      · exact (hnode.1.widen hstart (Position.le_refl _)).append (between_in rest hrest).1
          hthere hstop
      · exact (hnode.2.widen hstart (Position.le_refl _)).append (between_in rest hrest).2
          hthere hstop

end

theorem siblings_symbols {start stop : Position} {tree : List Node}
    (hordered : NodesInOrder start stop tree) : Symbol.Siblings (symbols tree) :=
  (between_in tree hordered).1.toSiblings

end Java
end EndpointTrace
