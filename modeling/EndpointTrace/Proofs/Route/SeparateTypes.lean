import EndpointTrace.Proofs.Route.Windows
import Mathlib

/-!
# Types on their own

A type is judged by the text before its name, and its handlers by the text behind the members
declared before them.  The types around it and beside it have no part in this, as long as its
declaration begins before its name.  So the endpoints of a file are those of its types, in the
order of declaration, each of them taken out of the file and without what is inside the types
nested in it.

Types are looked for at the top of a file and inside types.  The symbols of a source hold types
nowhere else.
-/

namespace EndpointTrace

namespace Symbol

/-!
## The types among symbols
-/

mutual

def preorderOf : Symbol → List Symbol
  | ⟨name, kind, full, selection, children⟩ =>
      ⟨name, kind, full, selection, children⟩ :: preorderIn children

def preorderIn : List Symbol → List Symbol
  | [] => []
  | symbol :: rest => preorderOf symbol ++ preorderIn rest

end

mutual

def typesOf : Symbol → List Symbol
  | ⟨name, kind, full, selection, children⟩ =>
      if kind.isType then ⟨name, kind, full, selection, children⟩ :: typesIn children else []

/-- The types that lie in no symbol but types. -/
def typesIn : List Symbol → List Symbol
  | [] => []
  | symbol :: rest => typesOf symbol ++ typesIn rest

end

def TypesLieInTypes (symbols : List Symbol) : Prop :=
  ∀ symbol ∈ preorderIn symbols, symbol.kind.isType = false →
    ∀ inner ∈ preorderIn symbol.children, inner.kind.isType = false

theorem typesIn_append (first second : List Symbol) :
    typesIn (first ++ second) = typesIn first ++ typesIn second := by
  induction first with
  | nil =>
      rfl
  | cons symbol rest ih =>
      rw [List.cons_append, typesIn, typesIn, ih, List.append_assoc]

theorem preorderIn_append (first second : List Symbol) :
    preorderIn (first ++ second) = preorderIn first ++ preorderIn second := by
  induction first with
  | nil =>
      rfl
  | cons symbol rest ih =>
      rw [List.cons_append, preorderIn, preorderIn, ih, List.append_assoc]

theorem preorderIn_singleton (symbol : Symbol) : preorderIn [symbol] = preorderOf symbol :=
  List.append_nil _

theorem TypesLieInTypes.append {first second : List Symbol} (hfirst : TypesLieInTypes first)
    (hsecond : TypesLieInTypes second) : TypesLieInTypes (first ++ second) := by
  intro symbol hsymbol
  rw [preorderIn_append] at hsymbol
  rcases List.mem_append.mp hsymbol with hmem | hmem
  · exact hfirst symbol hmem
  · exact hsecond symbol hmem

theorem TypesLieInTypes.type {symbol : Symbol} (hinside : TypesLieInTypes symbol.children)
    (htype : symbol.kind.isType = true) : TypesLieInTypes [symbol] := by
  cases symbol with
  | mk name kind full selection children =>
      intro other hother hnot
      rw [preorderIn_singleton, preorderOf] at hother
      rcases List.mem_cons.mp hother with rfl | hmem
      · cases hnot.symm.trans htype
      · exact hinside other hmem hnot

theorem TypesLieInTypes.leaf {symbol : Symbol} (hleaf : symbol.children = []) :
    TypesLieInTypes [symbol] := by
  cases symbol with
  | mk name kind full selection children =>
      cases hleaf
      intro other hother _
      rw [preorderIn_singleton, preorderOf, preorderIn] at hother
      rw [List.mem_singleton.mp hother]
      exact List.forall_mem_nil _

mutual

theorem isType_of_mem_typesOf : (symbol : Symbol) →
    ∀ type ∈ typesOf symbol, type.kind.isType = true
  | ⟨name, kind, full, selection, children⟩ => by
      intro type hmem
      rw [typesOf] at hmem
      split at hmem
      · rename_i htype
        rcases List.mem_cons.mp hmem with rfl | hinside
        · exact htype
        · exact isType_of_mem_typesIn children type hinside
      · cases hmem

theorem isType_of_mem_typesIn : (symbols : List Symbol) →
    ∀ type ∈ typesIn symbols, type.kind.isType = true
  | [] => List.forall_mem_nil _
  | symbol :: rest => by
      intro type hmem
      rcases List.mem_append.mp hmem with hfirst | hlater
      · exact isType_of_mem_typesOf symbol type hfirst
      · exact isType_of_mem_typesIn rest type hlater

end

mutual

theorem typesOf_eq_filter : (symbol : Symbol) → TypesLieInTypes [symbol] →
    typesOf symbol = (preorderOf symbol).filter fun inner => inner.kind.isType
  | ⟨name, kind, full, selection, children⟩, hhold => by
      have hmem : ∀ inner ∈ preorderIn children,
          inner ∈ preorderIn [⟨name, kind, full, selection, children⟩] := by
        intro inner hinner
        rw [preorderIn_singleton, preorderOf]
        exact List.mem_cons_of_mem _ hinner
      have hchildren := typesIn_eq_filter children fun inner hinner => hhold inner (hmem inner hinner)
      rw [typesOf, preorderOf, List.filter_cons]
      cases hkind : kind.isType with
      | true =>
          rw [if_pos rfl, if_pos rfl, hchildren]
      | false =>
          have hinside : ∀ inner ∈ preorderIn children, inner.kind.isType = false := by
            refine hhold ⟨name, kind, full, selection, children⟩ ?_ hkind
            rw [preorderIn_singleton, preorderOf]
            exact List.mem_cons_self
          rw [if_neg Bool.false_ne_true, if_neg Bool.false_ne_true, eq_comm,
            List.filter_eq_nil_iff]
          exact fun inner hinner => ne_true_of_eq_false (hinside inner hinner)

theorem typesIn_eq_filter : (symbols : List Symbol) → TypesLieInTypes symbols →
    typesIn symbols = (preorderIn symbols).filter fun inner => inner.kind.isType
  | [], _ => rfl
  | symbol :: rest, hhold => by
      have hfirst : TypesLieInTypes [symbol] := by
        intro inner hinner
        rw [preorderIn_singleton] at hinner
        exact hhold inner (List.mem_append_left _ hinner)
      have hrest : TypesLieInTypes rest := fun inner hinner =>
        hhold inner (List.mem_append_right _ hinner)
      rw [typesIn, preorderIn, List.filter_append, typesOf_eq_filter symbol hfirst,
        typesIn_eq_filter rest hrest]

end

/-!
## A type taken out of its file
-/

def emptied (symbol : Symbol) : Symbol :=
  if symbol.kind.isType then { symbol with children := [] } else symbol

/-- The type with its members, and with nothing inside the types among them. -/
def alone (type : Symbol) : Symbol :=
  { type with children := type.children.map emptied }

@[simp] theorem kind_emptied (symbol : Symbol) : symbol.emptied.kind = symbol.kind := by
  unfold emptied
  split <;> rfl

@[simp] theorem fullRange_emptied (symbol : Symbol) :
    symbol.emptied.fullRange = symbol.fullRange := by
  unfold emptied
  split <;> rfl

theorem emptied_of_method {symbol : Symbol} (hkind : symbol.kind = .method) :
    symbol.emptied = symbol := by
  rw [emptied, hkind]
  rfl

def BeginsBeforeName (symbol : Symbol) : Prop :=
  symbol.fullRange.start < symbol.selectionRange.start

instance (symbol : Symbol) : Decidable symbol.BeginsBeforeName :=
  inferInstanceAs (Decidable (_ < _))

end Symbol

/-!
## Symbols of a source
-/

namespace Java

open EndpointTrace.Symbol (TypesLieInTypes)

mutual

theorem typesLieInTypes_of : (node : Node) →
    TypesLieInTypes (typesOf node) ∧ TypesLieInTypes (membersOf node)
  | .typeDecl kind range name body => by
      have hbody := typesLieInTypes_in body
      cases name with
      | none =>
          exact ⟨List.forall_mem_nil _, List.forall_mem_nil _⟩
      | some name =>
          have htype : kind.symbolKind.isType = true := by
            cases kind <;> rfl
          have hdeclared : TypesLieInTypes
              [⟨name.text, kind.symbolKind, range, name.range, membersIn body⟩] :=
            .type hbody.2 htype
          exact ⟨hdeclared, hdeclared⟩
  | .callable kind range name body => by
      refine ⟨(typesLieInTypes_in body).1, ?_⟩
      cases name with
      | none =>
          exact List.forall_mem_nil _
      | some name =>
          exact .leaf rfl
  | .field range typeText names values => by
      refine ⟨(typesLieInTypes_in values).1, ?_⟩
      cases names with
      | nil =>
          exact List.forall_mem_nil _
      | cons name more =>
          exact .leaf rfl
  | .enumMembers members => typesLieInTypes_in members
  | .invocation _ _ _ children =>
      ⟨(typesLieInTypes_in children).1, List.forall_mem_nil _⟩
  | .other children => ⟨(typesLieInTypes_in children).1, List.forall_mem_nil _⟩

theorem typesLieInTypes_in : (nodes : List Node) →
    TypesLieInTypes (typesIn nodes) ∧ TypesLieInTypes (membersIn nodes)
  | [] => ⟨List.forall_mem_nil _, List.forall_mem_nil _⟩
  | node :: rest => by
      have hnode := typesLieInTypes_of node
      have hrest := typesLieInTypes_in rest
      exact ⟨hnode.1.append hrest.1, hnode.2.append hrest.2⟩

end

theorem typesLieInTypes_symbols (tree : List Node) : TypesLieInTypes (symbols tree) :=
  (typesLieInTypes_in tree).1

end Java

namespace Extraction

open EndpointTrace.Symbol (emptied preorderIn typesIn typesOf TypesLieInTypes)

def TypeSite.ofDeclaration (type : Symbol) : TypeSite :=
  ⟨type, ⟨type.fullRange.start, type.selectionRange.start⟩⟩

section

variable (windowLines : Nat)

theorem headerWindow_of_before (floor : Option Position) {type : Symbol}
    (hbefore : type.BeginsBeforeName) :
    headerWindow windowLines floor type.fullRange type.selectionRange =
      (TypeSite.ofDeclaration type).header :=
  if_pos hbefore

mutual

theorem sitesOf_eq (floor : Option Position) : (symbol : Symbol) →
    (∀ type ∈ typesOf symbol, type.BeginsBeforeName) →
    sitesOf windowLines floor symbol = (typesOf symbol).map TypeSite.ofDeclaration
  | ⟨name, kind, full, selection, children⟩, hbefore => by
      rw [typesOf] at hbefore ⊢
      rw [sitesOf]
      split
      · rename_i htype
        rw [if_pos htype] at hbefore
        have hself := headerWindow_of_before windowLines floor
          (hbefore ⟨name, kind, full, selection, children⟩ List.mem_cons_self)
        rw [List.map_cons, hself, sitesIn_eq (some selection.stop) children
          fun type hmem => hbefore type (List.mem_cons_of_mem _ hmem)]
        rfl
      · rfl

theorem sitesIn_eq (floor : Option Position) : (symbols : List Symbol) →
    (∀ type ∈ typesIn symbols, type.BeginsBeforeName) →
    sitesIn windowLines floor symbols = (typesIn symbols).map TypeSite.ofDeclaration
  | [], _ => rfl
  | symbol :: rest, hbefore => by
      rw [sitesIn, typesIn, List.map_append,
        sitesOf_eq floor symbol fun type hmem => hbefore type (List.mem_append_left _ hmem),
        sitesIn_eq (some symbol.fullRange.stop) rest
          fun type hmem => hbefore type (List.mem_append_right _ hmem)]

end

theorem children_of_mem_sitesIn_emptied (floor : Option Position) (members : List Symbol) :
    ∀ site ∈ sitesIn windowLines floor (members.map emptied), site.symbol.children = [] := by
  induction members generalizing floor with
  | nil =>
      exact List.forall_mem_nil _
  | cons member rest ih =>
      intro site hsite
      rw [List.map_cons, sitesIn] at hsite
      rcases List.mem_append.mp hsite with hfirst | hlater
      · cases member with
        | mk name kind full selection children =>
            rw [emptied] at hfirst
            cases hkind : kind.isType with
            | true =>
                rw [if_pos hkind, sitesOf, if_pos hkind, sitesIn] at hfirst
                rw [List.mem_singleton.mp hfirst]
            | false =>
                rw [if_neg (ne_true_of_eq_false hkind), sitesOf,
                  if_neg (ne_true_of_eq_false hkind)] at hfirst
                cases hfirst
      · exact ih (some member.emptied.fullRange.stop) site hlater

end

theorem handlersFrom_map_emptied (previous : Position) (members : List Symbol) :
    handlersFrom previous (members.map emptied) = handlersFrom previous members := by
  induction members generalizing previous with
  | nil =>
      rfl
  | cons member rest ih =>
      rw [List.map_cons, handlersFrom, handlersFrom, Symbol.kind_emptied,
        Symbol.fullRange_emptied, ih]
      split
      · rename_i hmethod
        rw [Symbol.emptied_of_method hmethod]
      · rfl

theorem handlers_alone (type : Symbol) : handlers type.alone = handlers type :=
  handlersFrom_map_emptied _ _

section

variable (rules : AnnotationRules) (windowLines : Nat) (file : FilePath) (document : Document)

theorem endpointsOfType_of_no_children {site : TypeSite} (hchildren : site.symbol.children = []) :
    endpointsOfType rules file document site = [] := by
  unfold endpointsOfType
  rw [handlers, hchildren, handlersFrom]
  split <;> rfl

theorem endpoints_eq_flatMap {symbols : List Symbol}
    (hbefore : ∀ type ∈ typesIn symbols, type.BeginsBeforeName) :
    endpoints rules windowLines file document symbols =
      (typesIn symbols).flatMap fun type =>
        endpointsOfType rules file document (.ofDeclaration type) := by
  rw [endpoints, sitesIn_eq windowLines none symbols hbefore, List.flatMap_map]

theorem endpoints_alone {type : Symbol} (htype : type.kind.isType = true)
    (hbefore : type.BeginsBeforeName) :
    endpoints rules windowLines file document [type.alone] =
      endpointsOfType rules file document (.ofDeclaration type) := by
  have hsites : sitesIn windowLines none [type.alone] =
      ⟨type.alone, (TypeSite.ofDeclaration type).header⟩ ::
        sitesIn windowLines (some type.selectionRange.stop) (type.children.map emptied) := by
    rw [sitesIn, sitesIn, List.append_nil, ← headerWindow_of_before windowLines none hbefore]
    exact if_pos htype
  have hnested : (sitesIn windowLines (some type.selectionRange.stop)
      (type.children.map emptied)).flatMap (endpointsOfType rules file document) = [] := by
    apply List.flatMap_eq_nil_iff.mpr
    intro site hsite
    exact endpointsOfType_of_no_children rules file document
      (children_of_mem_sitesIn_emptied windowLines _ _ site hsite)
  rw [endpoints, hsites, List.flatMap_cons, hnested, List.append_nil, endpointsOfType,
    endpointsOfType, handlers_alone]
  rfl

/-- The endpoints of a file are those of its types, each on its own: what a type contributes
depends on the type alone, and the endpoints of declarations side by side are those of the
first and those of the second.  The types that count lie in types only; in the symbols of a
source all types do. -/
theorem endpoints_each_alone :
    (∀ {symbols : List Symbol}, (∀ type ∈ typesIn symbols, type.BeginsBeforeName) →
      endpoints rules windowLines file document symbols =
        (typesIn symbols).flatMap fun type =>
          endpoints rules windowLines file document [type.alone]) ∧
      (∀ {first second : List Symbol},
        (∀ type ∈ typesIn (first ++ second), type.BeginsBeforeName) →
        endpoints rules windowLines file document (first ++ second) =
          endpoints rules windowLines file document first ++
            endpoints rules windowLines file document second) ∧
      (∀ {symbols : List Symbol}, TypesLieInTypes symbols →
        typesIn symbols = (preorderIn symbols).filter fun symbol => symbol.kind.isType) ∧
      ∀ tree, TypesLieInTypes (Java.symbols tree) := by
  refine ⟨?_, ?_, fun {symbols} => Symbol.typesIn_eq_filter symbols,
    Java.typesLieInTypes_symbols⟩
  · intro symbols hbefore
    rw [endpoints_eq_flatMap rules windowLines file document hbefore]
    apply List.flatMap_congr
    intro type hmem
    have htype := Symbol.isType_of_mem_typesIn symbols type hmem
    exact (endpoints_alone rules windowLines file document htype (hbefore type hmem)).symm
  · intro first second hbefore
    rw [endpoints_eq_flatMap rules windowLines file document hbefore, Symbol.typesIn_append,
      List.flatMap_append]
    rw [Symbol.typesIn_append] at hbefore
    rw [endpoints_eq_flatMap rules windowLines file document
        fun type hmem => hbefore type (List.mem_append_left _ hmem),
      endpoints_eq_flatMap rules windowLines file document
        fun type hmem => hbefore type (List.mem_append_right _ hmem)]

end

theorem endpoints_each_alone_nestedControllers :
    (∀ type ∈ typesIn (Java.symbols nestedTree), type.BeginsBeforeName) ∧
      ((typesIn (Java.symbols nestedTree)).map fun type =>
        (type.name, (endpoints .standard 5 ⟨"A.java"⟩ (.ofString nestedControllers)
          [type.alone]).map Endpoint.route)) = [("A", ["GET /a"]), ("B", ["PUT /b"])] ∧
      endpoints .standard 5 ⟨"A.java"⟩ (.ofString nestedControllers)
          (Java.symbols nestedTree) =
        (typesIn (Java.symbols nestedTree)).flatMap fun type =>
          endpoints .standard 5 ⟨"A.java"⟩ (.ofString nestedControllers) [type.alone] := by
  have hbefore : ∀ type ∈ typesIn (Java.symbols nestedTree), type.BeginsBeforeName := by
    decide
  refine ⟨hbefore, by cbv, ?_⟩
  exact (endpoints_each_alone .standard 5 ⟨"A.java"⟩ (.ofString nestedControllers)).1 hbefore

/-- A controller whose method holds another one, as no source has it among its symbols. -/
def localController : List Symbol :=
  [⟨"A", .classType, ⟨⟨0, 0⟩, ⟨7, 1⟩⟩, ⟨⟨1, 6⟩, ⟨1, 7⟩⟩,
    [⟨"m", .method, ⟨⟨2, 2⟩, ⟨6, 3⟩⟩, ⟨⟨2, 7⟩, ⟨2, 8⟩⟩,
      [⟨"B", .classType, ⟨⟨3, 4⟩, ⟨5, 5⟩⟩, ⟨⟨3, 22⟩, ⟨3, 23⟩⟩,
        [⟨"h", .method, ⟨⟨4, 6⟩, ⟨4, 35⟩⟩, ⟨⟨4, 29⟩, ⟨4, 30⟩⟩, []⟩]⟩]⟩]⟩]

def localControllerText : String :=
  "@RestController\nclass A \x7b\n  void m() \x7b\n    @Controller class B \x7b\n" ++
    "      @GetMapping(\"/b\") void h() \x7b\x7d\n    \x7d\n  \x7d\n\x7d\n"

theorem siblings_localController : Symbol.Siblings localController := by
  refine .singleton (.of_only_child (.of_only_child (.of_only_child ?_ rfl ?_ ?_ ?_ ?_)
    rfl ?_ ?_ ?_ ?_) rfl ?_ ?_ ?_ ?_)
  · exact .of_no_children (by decide) (by decide) (by decide) rfl
  all_goals decide

theorem not_alone_localController :
    Symbol.Siblings localController ∧
      (∀ type ∈ (preorderIn localController).filter fun symbol => symbol.kind.isType,
        type.BeginsBeforeName) ∧
      endpoints .standard 5 ⟨"A.java"⟩ (.ofString localControllerText) localController = [] ∧
      (((preorderIn localController).filter fun symbol => symbol.kind.isType).flatMap
        fun type => endpoints .standard 5 ⟨"A.java"⟩ (.ofString localControllerText)
          [type.alone]) = [⟨.get, "/b", "h", ⟨⟨"A.java"⟩, ⟨4, 29⟩⟩, 3, 4⟩] := by
  refine ⟨siblings_localController, by decide, by cbv, by cbv⟩

end Extraction
end EndpointTrace
