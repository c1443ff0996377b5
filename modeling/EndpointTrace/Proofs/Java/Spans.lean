import EndpointTrace.Proofs.Java.Bodies
import EndpointTrace.Proofs.Java.Skipping

/-!
# Nodes are made of tokens

The range of a node runs from the start of one token through the end of another that is not
before it, and the names of a node are tokens.  Every function of the grammar takes some
tokens from the front: what it took last and what it left stand in the order of the source,
and the nodes that it made are made of tokens of the source.
-/

namespace EndpointTrace
namespace Java

/-!
## Ranges and names of nodes
-/

namespace Node

def range? : Node → Option Range
  | .typeDecl _ range _ _ | .callable _ range _ _ | .field range _ _ _
  | .invocation range _ _ _ => some range
  | .enumMembers _ | .other _ => none

def names : Node → List Name
  | .typeDecl _ _ name _ | .callable _ _ name _ => name.toList
  | .field _ _ names _ => names
  | .enumMembers _ | .invocation .. | .other _ => []

end Node

def Spanned (source : Tokens) (range : Range) : Prop :=
  ∃ first ∈ source, ∃ last ∈ source, first.index ≤ last.index ∧ range = rangeOf first last

structure Node.MadeOf (source : Tokens) (node : Node) : Prop where
  range : ∀ range ∈ node.range?, Spanned source range
  names : ∀ name ∈ node.names, ∃ token ∈ source, name = nameOf token

/-- The nodes and the nodes inside them are made of tokens of the source. -/
def MadeOf (source : Tokens) (nodes : List Node) : Prop :=
  ∀ node ∈ preorderIn nodes, node.MadeOf source

theorem preorderIn_append (first second : List Node) :
    preorderIn (first ++ second) = preorderIn first ++ preorderIn second := by
  induction first with
  | nil =>
      rfl
  | cons node rest ih =>
      rw [List.cons_append, preorderIn, preorderIn, ih, List.append_assoc]

section

variable {source : Tokens}

theorem madeOf_nil : MadeOf source [] := by
  intro node hnode
  cases hnode

theorem MadeOf.append {first second : List Node} (hfirst : MadeOf source first)
    (hsecond : MadeOf source second) : MadeOf source (first ++ second) := by
  intro node hnode
  rw [preorderIn_append] at hnode
  rcases List.mem_append.mp hnode with hnode | hnode
  · exact hfirst node hnode
  · exact hsecond node hnode

theorem MadeOf.single {node : Node} {inner : List Node}
    (hpreorder : node.preorder = node :: preorderIn inner) (hnode : node.MadeOf source)
    (hinner : MadeOf source inner) : MadeOf source [node] := by
  intro found hfound
  rw [preorderIn, preorderIn, List.append_nil, hpreorder] at hfound
  rcases List.mem_cons.mp hfound with rfl | hfound
  · exact hnode
  · exact hinner found hfound

theorem MadeOf.nameless {node : Node} {inner : List Node}
    (hpreorder : node.preorder = node :: preorderIn inner) (hrange : node.range? = none)
    (hnames : node.names = []) (hinner : MadeOf source inner) : MadeOf source [node] := by
  apply MadeOf.single hpreorder _ hinner
  constructor
  · rw [hrange]
    intro range hmem
    cases hmem
  · rw [hnames]
    intro name hmem
    cases hmem

theorem MadeOf.other {inner : List Node} (hinner : MadeOf source inner) :
    MadeOf source [.other inner] :=
  .nameless rfl rfl rfl hinner

theorem MadeOf.enumMembers {inner : List Node} (hinner : MadeOf source inner) :
    MadeOf source [.enumMembers inner] :=
  .nameless rfl rfl rfl hinner

theorem MadeOf.named {node : Node} {inner : List Node} {range : Range} {name : Token}
    (hpreorder : node.preorder = node :: preorderIn inner) (hnode : node.range? = some range)
    (hnames : node.names = [nameOf name]) (hrange : Spanned source range)
    (hname : name ∈ source) (hinner : MadeOf source inner) : MadeOf source [node] := by
  apply MadeOf.single hpreorder _ hinner
  constructor
  · rw [hnode]
    rintro found ⟨⟩
    exact hrange
  · rw [hnames]
    intro found hfound
    exact ⟨name, hname, List.mem_singleton.mp hfound⟩

theorem MadeOf.typeDecl {inner : List Node} (hinner : MadeOf source inner) {range : Range}
    (hrange : Spanned source range) {name : Token} (hname : name ∈ source) (kind : TypeKind) :
    MadeOf source [.typeDecl kind range (some (nameOf name)) inner] :=
  .named rfl rfl rfl hrange hname hinner

theorem MadeOf.callable {inner : List Node} (hinner : MadeOf source inner) {range : Range}
    (hrange : Spanned source range) {name : Token} (hname : name ∈ source)
    (kind : CallableKind) :
    MadeOf source [.callable kind range (some (nameOf name)) inner] :=
  .named rfl rfl rfl hrange hname hinner

theorem MadeOf.invocation {inner : List Node} (hinner : MadeOf source inner) {range : Range}
    (hrange : Spanned source range) (object : Option String) (name : String) :
    MadeOf source [.invocation range object name inner] := by
  apply MadeOf.single rfl _ hinner
  constructor
  · rintro range ⟨⟩
    exact hrange
  · intro found hfound
    cases hfound

theorem MadeOf.field {inner : List Node} (hinner : MadeOf source inner) {range : Range}
    (hrange : Spanned source range) {names : List Name}
    (hnames : ∀ name ∈ names, ∃ token ∈ source, name = nameOf token) (body : BodyKind)
    (typeText : String) : MadeOf source [body.field range typeText names inner] := by
  unfold BodyKind.field
  split
  · exact hinner.other
  · apply MadeOf.single rfl _ hinner
    constructor
    · rintro range ⟨⟩
      exact hrange
    · exact hnames

theorem MadeOf.bodyCallable {node : Node} (hnode : MadeOf source [node]) (body : BodyKind) :
    MadeOf source [body.callable node] := by
  unfold BodyKind.callable
  split
  · exact hnode.other
  · exact hnode

/-!
## Readings
-/

/-- What was read from a token on, or behind it. -/
structure Reads (source : Tokens) (last : Token) (tokens : Tokens) (parsed : Parsed) :
    Prop where
  sublist : (parsed.last :: parsed.rest).Sublist (last :: tokens)
  nodes : MadeOf source parsed.nodes

namespace Reads

variable {last other : Token} {tokens rest : Tokens} {parsed more : Parsed}

theorem nothing (hsublist : (other :: rest).Sublist (last :: tokens)) :
    Reads source last tokens ⟨[], other, rest⟩ :=
  ⟨hsublist, madeOf_nil⟩

theorem stay : Reads source last tokens ⟨[], last, tokens⟩ :=
  nothing (List.Sublist.refl _)

theorem behind (hreads : Reads source other rest parsed)
    (hsublist : (other :: rest).Sublist (last :: tokens)) : Reads source last tokens parsed :=
  ⟨hreads.sublist.trans hsublist, hreads.nodes⟩

theorem withNodes (hreads : Reads source last tokens parsed) {nodes : List Node}
    (hnodes : MadeOf source nodes) :
    Reads source last tokens ⟨nodes, parsed.last, parsed.rest⟩ :=
  ⟨hreads.sublist, hnodes⟩

theorem append (hreads : Reads source last tokens parsed)
    (hmore : Reads source parsed.last parsed.rest more) :
    Reads source last tokens ⟨parsed.nodes ++ more.nodes, more.last, more.rest⟩ :=
  ⟨hmore.sublist.trans hreads.sublist, hreads.nodes.append hmore.nodes⟩

end Reads

/-- A token of the source that is not behind another one. -/
structure Starts (source : Tokens) (start last : Token) : Prop where
  mem : start ∈ source
  le : start.index ≤ last.index

end

section Grammar

-- Every function of the grammar passes the order on, also those that make no range.
set_option linter.unusedSectionVars false

variable {source : Tokens}
  (hordered : source.Pairwise fun first second => first.index ≤ second.index)

include hordered

theorem Starts.later {start last stop : Token} {tokens rest : Tokens}
    (hstarts : Starts source start last) (hsource : (last :: tokens).Sublist source)
    (hsublist : (stop :: rest).Sublist (last :: tokens)) : Starts source start stop := by
  refine ⟨hstarts.mem, ?_⟩
  rcases List.mem_cons.mp (hsublist.subset List.mem_cons_self) with rfl | hstop
  · exact hstarts.le
  · exact Nat.le_trans hstarts.le ((List.pairwise_cons.mp (hordered.sublist hsource)).1 _ hstop)

omit hordered in
theorem Starts.self {start : Token} {tokens : Tokens}
    (hsource : (start :: tokens).Sublist source) : Starts source start start :=
  ⟨hsource.subset List.mem_cons_self, Nat.le_refl _⟩

theorem Starts.spanned {start last stop : Token} {tokens rest : Tokens}
    (hstarts : Starts source start last) (hsource : (last :: tokens).Sublist source)
    (hsublist : (stop :: rest).Sublist (last :: tokens)) :
    Spanned source (rangeOf start stop) :=
  ⟨start, hstarts.mem, stop, (hsublist.trans hsource).subset List.mem_cons_self,
    (hstarts.later hordered hsource hsublist).le, rfl⟩

theorem Reads.goOn {start last : Token} {tokens : Tokens} {parsed : Parsed}
    {goes : Token → Tokens → Parsed} (hparsed : Reads source last tokens parsed)
    (hsource : (last :: tokens).Sublist source) (hstarts : Starts source start last)
    (hgoes : ∀ stop rest, (stop :: rest).Sublist source → Starts source start stop →
      Reads source stop rest (goes stop rest)) :
    Reads source last tokens (goes parsed.last parsed.rest) :=
  (hgoes _ _ (hparsed.sublist.trans hsource)
    (hstarts.later hordered hsource hparsed.sublist)).behind hparsed.sublist

mutual

theorem items_reads : (bound : Nat) → (inList : Bool) → (last : Token) → (tokens : Tokens) →
    (last :: tokens).Sublist source → Reads source last tokens (items bound inList last tokens)
  | 0, _, _, _, _ => .stay
  | _ + 1, _, _, [], _ => .stay
  | bound + 1, inList, last, token :: rest, hsource => by
      rw [items]
      split
      · exact .stay
      · have hrest := (List.sublist_cons_self last _).trans hsource
        have hfirst := item_reads bound token rest hrest
        have hmore := items_reads bound inList _ _ (hfirst.sublist.trans hrest)
        exact (hfirst.append hmore).behind (List.sublist_cons_self last _)

theorem bracketed_reads : (bound : Nat) → (opening : Token) → (tokens : Tokens) →
    (opening :: tokens).Sublist source →
      Reads source opening tokens (bracketed bound opening tokens)
  | 0, _, _, _ => .stay
  | bound + 1, opening, tokens, hsource => by
      have hinner := items_reads bound false opening tokens hsource
      rw [bracketed]
      split
      · exact hinner
      · rename_i closing rest hrest
        have hsublist := hinner.sublist
        rw [hrest] at hsublist
        exact ⟨(List.sublist_cons_self _ _).trans hsublist, hinner.nodes⟩

theorem item_reads : (bound : Nat) → (token : Token) → (rest : Tokens) →
    (token :: rest).Sublist source → Reads source token rest (item bound token rest)
  | 0, _, _, _ => .stay
  | bound + 1, token, rest, hsource => by
      have hself := Starts.self hsource
      unfold item
      split
      · rename_i declared tokens hdeclared
        have hbehind := (suffix_of_declared?_afterModifiers hdeclared).sublist.cons_cons token
        exact (typeDecl_reads bound token declared tokens (hbehind.trans hsource)).behind hbehind
      · -- No declaration, so the kind of the token decides.
        split
        · exact chain_reads bound token [] madeOf_nil token rest hsource hself
        · split
          · have hinner := bracketed_reads bound token rest hsource
            exact hinner.goOn hordered hsource hself (chain_reads bound token _ hinner.nodes)
          · split
            · exact bracketed_reads bound token rest hsource
            · split
              · exact .nothing ((afterMark_suffix rest).sublist.cons_cons token)
              · exact .stay
        · split
          · have hmade := creation_reads bound token rest hsource
            exact hmade.goOn hordered hsource hself (chain_reads bound token _ hmade.nodes)
          · split
            · exact .nothing ((afterCase_sublist rest).cons_cons token)
            · split
              · exact .nothing ((afterPattern_sublist rest).cons_cons token)
              · split
                · exact .stay
                · split
                  · exact .stay
                  · rename_i next arguments _
                    split
                    · have hnext := List.sublist_cons_self token (next :: arguments)
                      have hinner := (bracketed_reads bound next arguments
                        (hnext.trans hsource)).behind hnext
                      split
                      · exact hinner
                      · have hspan := hself.spanned hordered hsource hinner.sublist
                        exact hinner.goOn hordered hsource hself (chain_reads bound token _
                          (hinner.nodes.invocation hspan none token.text))
                    · exact chain_reads bound token [] madeOf_nil token _ hsource hself

theorem chain_reads : (bound : Nat) → (start : Token) → (nodes : List Node) →
    MadeOf source nodes → (last : Token) → (tokens : Tokens) →
      (last :: tokens).Sublist source → Starts source start last →
        Reads source last tokens (chain bound start nodes last tokens)
  | 0, _, _, hnodes, _, _, _, _ => ⟨List.Sublist.refl _, hnodes⟩
  | _ + 1, _, _, hnodes, _, [], _, _ => ⟨List.Sublist.refl _, hnodes⟩
  | _ + 1, _, _, hnodes, _, [_], _, _ => ⟨List.Sublist.refl _, hnodes⟩
  | bound + 1, start, nodes, hnodes, last, token :: next :: rest, hsource, hstarts => by
      have hstay : Reads source last (token :: next :: rest)
          ⟨nodes, last, token :: next :: rest⟩ :=
        ⟨List.Sublist.refl _, hnodes⟩
      have htoken : (token :: next :: rest).Sublist (last :: token :: next :: rest) :=
        List.sublist_cons_self _ _
      have hnext : (next :: rest).Sublist (last :: token :: next :: rest) :=
        (List.sublist_cons_self _ _).trans htoken
      have hrest : rest.Sublist (last :: token :: next :: rest) :=
        (List.sublist_cons_self _ _).trans hnext
      have hchain := chain_reads bound start nodes hnodes
      unfold chain
      split
      · -- Behind a dot stand type arguments, a new object, the object itself or a name.
        split
        · split
          · rename_i name behind hangles
            have hname := (behind_suffix_of_afterAngles? hangles).sublist.trans hrest
            exact (Reads.nothing hname).goOn hordered hsource hstarts
              (selection_reads bound start nodes hnodes last)
          · exact hstay
        · split
          · have hmade := (creation_reads bound next rest (hnext.trans hsource)).behind hnext
            exact hmade.goOn hordered hsource hstarts
              (chain_reads bound start _ (hnodes.append hmade.nodes))
          · split
            · split
              · rename_i paren arguments
                split
                · have hinner := (bracketed_reads bound paren arguments
                    (hrest.trans hsource)).behind hrest
                  exact hinner.withNodes (hnodes.append hinner.nodes)
                · have hsuffix := (List.suffix_cons next (paren :: arguments)).trans
                    (List.suffix_cons token _)
                  exact (Reads.nothing (hsuffix.sublist.cons_cons last)).goOn hordered hsource
                    hstarts hchain
              · exact ⟨hnext, hnodes⟩
            · split
              · exact (Reads.nothing hnext).goOn hordered hsource hstarts
                  (selection_reads bound start nodes hnodes last)
              · exact hstay
      · split
        · have hinner := (bracketed_reads bound token _ (htoken.trans hsource)).behind htoken
          exact hinner.goOn hordered hsource hstarts
            (chain_reads bound start _ (hnodes.append hinner.nodes))
        · -- A method reference, perhaps behind type arguments and dimensions.
          split
          · split
            · split
              · rename_i name behind hangles
                have hname := (behind_suffix_of_afterAngles? hangles).sublist.trans hrest
                exact (Reads.nothing hname).goOn hordered hsource hstarts hchain
              · exact hstay
            · split
              · exact (Reads.nothing hnext).goOn hordered hsource hstarts hchain
              · exact hstay
          · split
            · split
              · rename_i closing behind hangles
                split
                · have hclosing := (suffix_of_afterAngles? hangles).sublist.trans hnext
                  have hbehind := (afterDimensions_suffix bound behind).sublist.cons_cons closing
                  exact (Reads.nothing (hbehind.trans hclosing)).goOn hordered hsource hstarts
                    hchain
                · exact hstay
              · exact hstay
            · exact hstay

theorem selection_reads : (bound : Nat) → (start : Token) → (nodes : List Node) →
    MadeOf source nodes → (last name : Token) → (tokens : Tokens) →
      (name :: tokens).Sublist source → Starts source start name →
        Reads source name tokens (selection bound start nodes last name tokens)
  | 0, _, _, hnodes, _, _, _, _, _ => ⟨List.Sublist.refl _, hnodes⟩
  | _ + 1, _, _, hnodes, _, _, [], _, _ => ⟨List.Sublist.refl _, hnodes⟩
  | bound + 1, start, nodes, hnodes, last, name, next :: arguments, hsource, hstarts => by
      have hnext := List.sublist_cons_self name (next :: arguments)
      unfold selection
      split
      · have hinner := (bracketed_reads bound next arguments (hnext.trans hsource)).behind hnext
        have hspan := hstarts.spanned hordered hsource hinner.sublist
        exact hinner.goOn hordered hsource hstarts (chain_reads bound start _
          ((hnodes.append hinner.nodes).invocation hspan _ name.text))
      · exact chain_reads bound start nodes hnodes name _ hsource hstarts

theorem creation_reads : (bound : Nat) → (last : Token) → (tokens : Tokens) →
    (last :: tokens).Sublist source → Reads source last tokens (creation bound last tokens)
  | 0, _, _, _ => .stay
  | bound + 1, last, tokens, hsource => by
      have hbehind : (afterModifiers bound tokens).Sublist (last :: tokens) :=
        (afterModifiers_suffix bound tokens).sublist.trans (List.sublist_cons_self _ _)
      unfold creation
      simp only
      split
      · exact .nothing ((List.nil_sublist _).cons_cons last)
      · rename_i name rest hnamed
        have hname : (name :: rest).Sublist (last :: tokens) := by
          rw [← hnamed]
          exact (behindAngles_suffix _).sublist.trans hbehind
        have htype := (afterType_sublist bound name rest).trans hname
        split
        · rename_i typeLast hlast
          rw [hlast] at htype
          exact .nothing htype
        · rename_i typeLast token more hlast
          rw [hlast] at htype
          have htoken := (List.sublist_cons_self _ _).trans htype
          split
          · have hinner := (bracketed_reads bound token more (htoken.trans hsource)).behind htoken
            split
            · rename_i brace behind hrest
              split
              · have hsublist := hinner.sublist
                rw [hrest] at hsublist
                have hbrace := (List.sublist_cons_self _ _).trans hsublist
                have hbody := (members_reads bound .plain brace behind
                  (hbrace.trans hsource)).behind hbrace
                exact hbody.withNodes (hinner.nodes.append hbody.nodes)
              · exact hinner
            · exact hinner
          · split
            · exact (bracketed_reads bound token more (htoken.trans hsource)).behind htoken
            · exact .nothing htype

theorem typeDecl_reads : (bound : Nat) → (start : Token) → (declared : Declared) →
    (tokens : Tokens) → (start :: tokens).Sublist source →
      Reads source start tokens (typeDecl bound start declared tokens)
  | 0, _, _, _, _ => .stay
  | _ + 1, _, _, [], _ => .stay
  | bound + 1, start, declared, name :: header, hsource => by
      have hself := Starts.self hsource
      have hname : name ∈ source := hsource.subset (List.mem_cons_of_mem _ List.mem_cons_self)
      unfold typeDecl
      split
      · exact .nothing (List.sublist_cons_self _ _)
      · rename_i brace tokens hheader
        have hbrace := ((suffix_of_afterHeader? hheader).trans
          (List.suffix_cons name header)).sublist.trans (List.sublist_cons_self start _)
        split
        · have hbody := (members_reads bound .annotationType brace tokens
            (hbrace.trans hsource)).behind hbrace
          exact hbody.withNodes hbody.nodes.other
        · rename_i kind
          have hbody : Reads source start (name :: header)
              (if kind = .enumType then constants bound brace tokens
                else members bound (.ofType kind) brace tokens) := by
            split
            · exact (constants_reads bound brace tokens (hbrace.trans hsource)).behind hbrace
            · exact (members_reads bound _ brace tokens (hbrace.trans hsource)).behind hbrace
          exact hbody.withNodes
            (hbody.nodes.typeDecl (hself.spanned hordered hsource hbody.sublist) hname kind)

theorem constants_reads : (bound : Nat) → (last : Token) → (tokens : Tokens) →
    (last :: tokens).Sublist source → Reads source last tokens (constants bound last tokens)
  | 0, _, _, _ => .stay
  | _ + 1, _, [], _ => .stay
  | bound + 1, last, token :: rest, hsource => by
      have htoken := List.sublist_cons_self last (token :: rest)
      have hmoreOf : ∀ {parsed : Parsed} {nodes : List Node}, MadeOf source nodes →
          Reads source last (token :: rest) parsed →
            Reads source last (token :: rest)
              ⟨nodes ++ (constants bound parsed.last parsed.rest).nodes,
                (constants bound parsed.last parsed.rest).last,
                (constants bound parsed.last parsed.rest).rest⟩ := by
        intro parsed nodes hnodes hparsed
        exact (hparsed.withNodes hnodes).append
          (constants_reads bound _ _ (hparsed.sublist.trans hsource))
      unfold constants
      split
      · exact .nothing htoken
      · split
        · have hbody := (members_reads bound .plain token rest (htoken.trans hsource)).behind
            htoken
          exact hbody.withNodes hbody.nodes.enumMembers
        · split
          · have hmark := ((afterMark_suffix rest).sublist.cons_cons token).trans htoken
            exact (constants_reads bound token _ (hmark.trans hsource)).behind hmark
          · split
            · have hinner := (bracketed_reads bound token rest (htoken.trans hsource)).behind htoken
              exact hmoreOf hinner.nodes.other hinner
            · split
              · have hbody := (members_reads bound .plain token rest
                  (htoken.trans hsource)).behind htoken
                exact hmoreOf hbody.nodes.other hbody
              · exact (constants_reads bound token rest (htoken.trans hsource)).behind htoken

theorem members_reads : (bound : Nat) → (body : BodyKind) → (last : Token) →
    (tokens : Tokens) → (last :: tokens).Sublist source →
      Reads source last tokens (members bound body last tokens)
  | 0, _, _, _, _ => .stay
  | _ + 1, _, _, [], _ => .stay
  | bound + 1, body, last, token :: rest, hsource => by
      have htoken := List.sublist_cons_self last (token :: rest)
      have hrest := htoken.trans hsource
      unfold members
      split
      · exact .nothing htoken
      · have hfirst := member_reads bound body token rest hrest
        have hmore := members_reads bound body _ _ (hfirst.sublist.trans hrest)
        exact (hfirst.append hmore).behind htoken

theorem member_reads : (bound : Nat) → (body : BodyKind) → (token : Token) → (rest : Tokens) →
    (token :: rest).Sublist source → Reads source token rest (member bound body token rest)
  | 0, _, _, _, _ => .stay
  | bound + 1, body, token, rest, hsource => by
      have hself := Starts.self hsource
      have hmodifiers := afterModifiers_suffix bound (token :: rest)
      unfold member
      split
      · exact .stay
      · split
        · have hblock := bracketed_reads bound token rest hsource
          exact hblock.withNodes hblock.nodes.other
        · simp only
          split
          · rename_i declared tokens hdeclared
            have hbehind := (suffix_of_declared?_afterModifiers hdeclared).sublist.cons_cons token
            exact (typeDecl_reads bound token declared tokens
              (hbehind.trans hsource)).behind hbehind
          · split
            · exact .nothing ((List.nil_sublist _).cons_cons token)
            · rename_i first tokens htyped
              have htypedSuffix : first :: tokens <:+ token :: rest := by
                rw [← htyped]
                exact (behindAngles_suffix _).trans hmodifiers
              have hfirst := htypedSuffix.sublist
              -- The first token behind modifiers and type parameters tells what is declared.
              split
              · split
                · rename_i next inner
                  have hnext := (List.sublist_cons_self first (next :: inner)).trans hfirst
                  split
                  · have hinner := ((List.sublist_cons_self next inner).cons_cons first).trans
                      hfirst
                    exact (Reads.nothing hinner).goOn hordered hsource hself
                      (callable_reads bound body .constructor token)
                  · split
                    · have hblock := (bracketed_reads bound next inner
                        (hnext.trans hsource)).behind hnext
                      exact hblock.withNodes hblock.nodes.other
                    · have htype := (afterType_sublist bound first (next :: inner)).trans hfirst
                      split
                      · rename_i typeLast name behind hlast
                        rw [hlast] at htype
                        have hname := (List.sublist_cons_self _ _).trans htype
                        split
                        · split
                          · have hdrop := ((List.drop_sublist 1 behind).cons_cons name).trans hname
                            exact (Reads.nothing hdrop).goOn hordered hsource hself
                              (callable_reads bound body .method token)
                          · obtain ⟨hvalues, hnames⟩ := declarators_reads bound name behind
                              (hname.trans hsource)
                            have hbehind := hvalues.behind hname
                            have hspan := hself.spanned hordered hsource hbehind.sublist
                            exact hbehind.withNodes (hbehind.nodes.field hspan hnames body _)
                        · exact .nothing htype
                      · rename_i typeLast hlast
                        rw [hlast] at htype
                        exact .nothing htype
                · exact .nothing hfirst
              · split
                · have hblock := (bracketed_reads bound first tokens
                    (hfirst.trans hsource)).behind hfirst
                  exact hblock.withNodes hblock.nodes.other
                · split
                  · rename_i hclosing
                    have hlater : first :: tokens <:+ rest := by
                      rcases List.suffix_cons_iff.mp htypedSuffix with hsame | hlater
                      · cases hsame
                        simp at hclosing
                      · exact hlater
                    exact .nothing (hlater.sublist.cons_cons token)
                  · exact .nothing hfirst

theorem callable_reads : (bound : Nat) → (body : BodyKind) → (kind : CallableKind) →
    (start name : Token) → (tokens : Tokens) → (name :: tokens).Sublist source →
      Starts source start name →
        Reads source name tokens (callable bound body kind start name tokens)
  | 0, _, _, _, _, _, _, _ => .stay
  | bound + 1, body, kind, start, name, tokens, hsource, hstarts => by
      have hname : name ∈ source := hsource.subset List.mem_cons_self
      have hskipped := ((List.dropWhile_suffix fun token : Token =>
        !(token.isSymbol "\x7b" || token.isSymbol "\x7d" || token.isSymbol ";")).trans
          (afterClosing_suffix 0 tokens)).sublist
      unfold callable
      simp only
      split
      · exact .nothing ((List.nil_sublist _).cons_cons name)
      · rename_i token rest hfound
        rw [hfound] at hskipped
        have hbehind := hskipped.trans (List.sublist_cons_self name tokens)
        split
        · have hblock := (bracketed_reads bound token rest (hbehind.trans hsource)).behind hbehind
          have hspan := hstarts.spanned hordered hsource hblock.sublist
          exact hblock.withNodes ((hblock.nodes.callable hspan hname kind).bodyCallable body)
        · split
          · have hspan := hstarts.spanned hordered hsource hbehind
            exact ⟨hbehind, (madeOf_nil.callable hspan hname kind).bodyCallable body⟩
          · exact .nothing (hskipped.cons_cons name)

theorem declarators_reads : (bound : Nat) → (name : Token) → (tokens : Tokens) →
    (name :: tokens).Sublist source →
      Reads source name tokens (declarators bound name tokens).2 ∧
        ∀ found ∈ (declarators bound name tokens).1, ∃ token ∈ source, found = nameOf token
  | 0, name, tokens, hsource => by
      have hname : name ∈ source := hsource.subset List.mem_cons_self
      exact ⟨.stay, fun found hfound => ⟨name, hname, List.mem_singleton.mp hfound⟩⟩
  | bound + 1, name, tokens, hsource => by
      have hname : name ∈ source := hsource.subset List.mem_cons_self
      have hone : ∀ found ∈ [nameOf name], ∃ token ∈ source, found = nameOf token :=
        fun found hfound => ⟨name, hname, List.mem_singleton.mp hfound⟩
      unfold declarators
      extract_lets behind value
      have hdimensions : behind.Sublist tokens := (afterDimensions_suffix bound tokens).sublist
      clear_value behind
      have hvalue : Reads source name tokens value := by
        unfold value
        split
        · rename_i token rest
          split
          · have hrest := hdimensions.trans (List.sublist_cons_self name _)
            exact (items_reads bound true token rest (hrest.trans hsource)).behind hrest
          · exact .nothing (hdimensions.cons_cons name)
        · exact .nothing ((List.nil_sublist _).cons_cons name)
      clear_value value
      have hsublist := hvalue.sublist
      split
      · rename_i token rest heq
        rw [heq] at hsublist
        have htoken := (List.sublist_cons_self _ _).trans hsublist
        split
        · exact ⟨⟨htoken, hvalue.nodes⟩, hone⟩
        · split
          · split
            · rename_i next behind
              split
              · have hnext := (List.sublist_cons_self token (next :: behind)).trans htoken
                obtain ⟨hmore, hnames⟩ := declarators_reads bound next behind
                  (hnext.trans hsource)
                have hbehind := hmore.behind hnext
                refine ⟨hbehind.withNodes (hvalue.nodes.append hbehind.nodes), ?_⟩
                intro found hfound
                rcases List.mem_cons.mp hfound with rfl | hfound
                · exact ⟨name, hname, rfl⟩
                · exact hnames found hfound
              · exact ⟨⟨htoken, hvalue.nodes⟩, hone⟩
            · exact ⟨⟨htoken, hvalue.nodes⟩, hone⟩
          · exact ⟨hvalue, hone⟩
      · exact ⟨hvalue, hone⟩

end

theorem declarations_madeOf (bound : Nat) (tokens : Tokens) (hsource : tokens.Sublist source) :
    MadeOf source (declarations bound tokens) := by
  fun_induction declarations bound tokens with
  | case1 => exact madeOf_nil
  | case2 => exact madeOf_nil
  | case3 bound token rest _ ih =>
      have hskipped := (List.drop_suffix 1 _).trans
        (List.dropWhile_suffix fun t : Token => !t.isSymbol ";" : _ <:+ rest)
      exact ih ((hskipped.trans (List.suffix_cons token rest)).sublist.trans hsource)
  | case4 bound token rest _ first ih =>
      have hfirst : Reads source token rest first :=
        member_reads hordered bound .plain token rest hsource
      have hrest := (List.sublist_cons_self _ _).trans hfirst.sublist
      exact hfirst.nodes.append (ih (hrest.trans hsource))

end Grammar

end Java
end EndpointTrace
