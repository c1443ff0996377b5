import EndpointTrace.Diagram.Sequence
import EndpointTrace.Proofs.CallTree.Accounting

/-!
# Outlines of call trees

What a sequence diagram shows of a call tree is its outline: the contexts and names of its
nodes, and which of them is called by which, in what order.  Here the lines of a diagram
are written down by recursion over an outline, and the walk with a list of pending nodes is
shown to give the same lines for every tree that is built.
-/

namespace EndpointTrace

namespace CallTree

/-- A tree that is built, or that is left when the run is cancelled between two rounds. -/
inductive Built (tree : CallTree) : Prop where
  | finished {σ : Type} {limits : CallLimits} {guard : Guard} {oracle : Oracle σ}
      {location : Location} {state : σ} {moment : Moment}
      (hresult : (build limits guard oracle location state moment).result = .ok (some tree)) :
      Built tree
  | interrupted {σ : Type} {limits : CallLimits} {guard : Guard} {oracle : Oracle σ}
      {location : Location} {state : σ} {moment : Moment} {start final : Expansion σ}
      (hstart : Resolves guard oracle location state moment start)
      (hrun : Expansion.Run limits guard oracle start final) (htree : final.tree = tree) :
      Built tree

theorem Built.wellFormed {tree : CallTree} (hbuilt : tree.Built) : tree.WellFormed := by
  cases hbuilt with
  | finished hresult =>
      rcases resolves_of_build hresult with ⟨start, hstart⟩
      rw [build_of_resolves hstart] at hresult
      cases hresult
      exact ((Expansion.run_finish _ _ _ start).sound hstart.sound).shaped.formed
  | interrupted hstart hrun htree =>
      rw [← htree]
      exact (hrun.sound hstart.sound).shaped.formed

/-!
## From the leaves to the root
-/

section

variable {tree : CallTree} {id : Nat} {node : CallNode}

theorem children_of_node? (hnode : tree.node? id = some node) :
    tree.children id = node.children := by
  rw [children, hnode]
  rfl

theorem WellFormed.lt_child (hformed : tree.WellFormed) (hnode : tree.node? id = some node)
    {child : Nat} (hchild : child ∈ node.children) : id < child := by
  rcases hformed.child hnode hchild with ⟨below, hbelow, hparent⟩
  exact (hformed.parent_lt hbelow hparent).1

theorem WellFormed.filter_children (hformed : tree.WellFormed)
    (hnode : tree.node? id = some node) :
    (tree.children id).filter (id < ·) = node.children := by
  rw [children_of_node? hnode, List.filter_eq_self]
  intro child hchild
  exact decide_eq_true (hformed.lt_child hnode hchild)

theorem WellFormed.preorder_eq (hformed : tree.WellFormed)
    (hnode : tree.node? id = some node) :
    tree.preorder id = id :: node.children.flatMap tree.preorder := by
  rw [CallTree.preorder_eq, if_pos (lt_size_of_node? hnode), hformed.filter_children hnode]

/-- What holds of a node if it holds of its children holds of every node. -/
theorem WellFormed.bottomUp (hformed : tree.WellFormed) {motive : Nat → Prop}
    (hstep : ∀ {id : Nat} {node : CallNode}, tree.node? id = some node →
      (∀ child ∈ node.children, motive child) → motive id)
    (hnode : tree.node? id = some node) : motive id := by
  induction hleft : tree.size - id using Nat.strongRecOn generalizing id node with
  | ind left ih =>
      apply hstep hnode
      intro child hchild
      rcases hformed.child hnode hchild with ⟨below, hbelow, _⟩
      have hid := lt_size_of_node? hnode
      have hlt := hformed.lt_child hnode hchild
      exact ih (tree.size - child) (by omega) hbelow rfl

end

/-!
## Every node is met once
-/

section

variable {tree : CallTree} {id parent : Nat} {node : CallNode}

theorem WellFormed.count_children (hformed : tree.WellFormed)
    (hnode : tree.node? id = some node) (hparent : node.parent = some parent) {other : Nat}
    {above : CallNode} (habove : tree.node? other = some above) :
    above.children.count id = if other = parent then 1 else 0 := by
  split
  · rename_i hsame
    rcases (hformed.parent_lt hnode hparent).2 with ⟨found, hfound, _, hmem⟩
    rw [hsame, hfound] at habove
    cases habove
    have hnodup : above.children.Nodup :=
      (hformed.ordered hfound).imp fun hlt => Nat.ne_of_lt hlt
    exact List.count_eq_one_of_mem hnodup hmem
  · rename_i hother
    apply List.count_eq_zero.mpr
    intro hmem
    rcases hformed.child habove hmem with ⟨below, hbelow, hback⟩
    rw [hnode] at hbelow
    cases hbelow
    rw [hparent] at hback
    exact hother (Option.some.inj hback).symm

/-- Below another node, a node is met whenever its parent is. -/
theorem WellFormed.count_preorder (hformed : tree.WellFormed)
    (hnode : tree.node? id = some node) (hparent : node.parent = some parent) {top : Nat}
    {above : CallNode} (habove : tree.node? top = some above) :
    (tree.preorder top).count id =
      (if top = id then 1 else 0) + (tree.preorder top).count parent := by
  apply hformed.bottomUp _ habove
  intro top above habove hbelow
  have hsum : ∀ ids : List Nat, (∀ child ∈ ids, child ∈ above.children) →
      (ids.flatMap tree.preorder).count id =
        ids.count id + (ids.flatMap tree.preorder).count parent := by
    intro ids hids
    induction ids with
    | nil =>
        rfl
    | cons child rest ih =>
        have hchild := hbelow child (hids child List.mem_cons_self)
        have hrest := ih fun other hother => hids other (List.mem_cons_of_mem child hother)
        rw [List.flatMap_cons, List.count_append, List.count_append, hchild, hrest,
          List.count_cons]
        simp only [beq_iff_eq]
        omega
  rw [hformed.preorder_eq habove, List.count_cons, List.count_cons, hsum _ fun _ hmem => hmem,
    hformed.count_children hnode hparent habove]
  simp only [beq_iff_eq]
  omega

theorem WellFormed.bounds_of_mem_preorder (hformed : tree.WellFormed)
    (hnode : tree.node? id = some node) :
    ∀ other ∈ tree.preorder id, id ≤ other ∧ other < tree.size := by
  apply hformed.bottomUp _ hnode
  intro id node hnode hbelow other hother
  rw [hformed.preorder_eq hnode, List.mem_cons, List.mem_flatMap] at hother
  rcases hother with rfl | ⟨child, hchild, hmem⟩
  · exact ⟨Nat.le_refl _, lt_size_of_node? hnode⟩
  · have hlt := hformed.lt_child hnode hchild
    have hbounds := hbelow child hchild other hmem
    exact ⟨by omega, hbounds.2⟩

theorem WellFormed.count_preorder_root (hformed : tree.WellFormed)
    (hnode : tree.node? id = some node) : (tree.preorder 0).count id = 1 := by
  rcases hformed.root with ⟨root, hroot, _, _⟩
  induction id using Nat.strongRecOn generalizing node with
  | ind id ih =>
      by_cases hid : id = 0
      · have hothers : 0 ∉ root.children.flatMap tree.preorder := by
          rw [List.mem_flatMap]
          rintro ⟨child, hchild, hmem⟩
          rcases hformed.child hroot hchild with ⟨below, hbelow, _⟩
          have hlt := hformed.lt_child hroot hchild
          have hbounds := hformed.bounds_of_mem_preorder hbelow 0 hmem
          omega
        rw [hid, hformed.preorder_eq hroot, List.count_cons_self,
          List.count_eq_zero.mpr hothers]
      · rcases hformed.below hnode hid with ⟨parent, above, hparent, hlt, habove, _⟩
        rw [hformed.count_preorder hnode hparent hroot, if_neg (Ne.symm hid),
          ih parent hlt habove]

theorem WellFormed.preorder_perm (hformed : tree.WellFormed) :
    (tree.preorder 0).Perm (List.range tree.size) := by
  rcases hformed.root with ⟨root, hroot, _, _⟩
  rw [List.perm_iff_count]
  intro id
  by_cases hid : id < tree.size
  · rcases exists_node?_of_lt hid with ⟨node, hnode⟩
    rw [hformed.count_preorder_root hnode, List.count_eq_one_of_mem List.nodup_range
      (List.mem_range.mpr hid)]
  · rw [List.count_eq_zero.mpr fun hmem => hid (List.mem_range.mp hmem), List.count_eq_zero]
    intro hmem
    exact hid (hformed.bounds_of_mem_preorder hroot id hmem).2

end

end CallTree

/-!
## Outlines
-/

structure Outline where
  context : String
  name : String
  callees : List Outline

namespace Outline

def participant (outline : Outline) : String :=
  String.ofList (Diagram.participantChars outline.context.toList outline.name.toList)

mutual

def preorder : Outline → List Outline
  | ⟨context, name, callees⟩ => ⟨context, name, callees⟩ :: preorders callees

def preorders : List Outline → List Outline
  | [] => []
  | first :: rest => first.preorder ++ preorders rest

end

mutual

def calls : Outline → List (Outline × Outline)
  | ⟨context, name, callees⟩ => callsBy ⟨context, name, callees⟩ callees

def callsBy (caller : Outline) : List Outline → List (Outline × Outline)
  | [] => []
  | callee :: rest => (caller, callee) :: (callee.calls ++ callsBy caller rest)

end

end Outline

namespace Diagram

/-- What a line of a diagram can say after the participants. -/
inductive Statement where
  | message (source target text : String)
  | response (source target text : String)
  | note (about text : String)

namespace Statement

def line : Statement → String
  | message source target text => "    " ++ source ++ "->>" ++ target ++ ": " ++ text
  | response source target text => "    " ++ source ++ "-->>" ++ target ++ ": " ++ text
  | note about text => "    Note over " ++ about ++ ": " ++ text

theorem line_message (source target text : String) :
    (message source target text).line =
      "    " ++ source ++ "->>" ++ target ++ ": " ++ text := rfl

theorem line_response (source target text : String) :
    (response source target text).line =
      "    " ++ source ++ "-->>" ++ target ++ ": " ++ text := rfl

theorem line_note (about text : String) :
    (note about text).line = "    Note over " ++ about ++ ": " ++ text := rfl

def participants : Statement → List String
  | message source target _ => [source, target]
  | response source target _ => [source, target]
  | note about _ => [about]

def ofCall (call : Outline × Outline) : Statement :=
  .message call.1.participant call.2.participant (label call.2.name)

end Statement

end Diagram

namespace Outline

open Diagram (Request Statement)

/-- The ids that are declared: each once, in the order of first appearance. -/
def declared (outline : Outline) (request : Option Request) : List String :=
  ((if request.isSome then ["Client"] else []) ++
    outline.preorder.map participant).eraseDups

def opening (outline : Outline) : Option Request → List Statement
  | none => []
  | some request =>
      [.message "Client" outline.participant
          (request.method.name ++ " " ++ Diagram.label request.path),
        .note outline.participant (Diagram.label request.handler ++ "()")]

def closing (outline : Outline) : Option Request → List Statement
  | some _ => [.response outline.participant "Client" "response"]
  | none =>
      match outline.calls with
      | [] => [.message outline.participant outline.participant "No outgoing calls found"]
      | _ :: _ => []

/-- What is said after the participants: one message for every call, between what a request
adds. -/
def statements (outline : Outline) (request : Option Request) : List Statement :=
  outline.opening request ++ outline.calls.map .ofCall ++ outline.closing request

def lines (outline : Outline) (request : Option Request) : List String :=
  "sequenceDiagram" ::
    (outline.declared request).map (fun id => "    participant " ++ id)
    ++ (outline.statements request).map Statement.line

/-!
## Calls and nodes
-/

theorem preorders_eq_flatMap (outlines : List Outline) :
    preorders outlines = outlines.flatMap preorder := by
  induction outlines with
  | nil =>
      rfl
  | cons first rest ih =>
      rw [preorders, ih, List.flatMap_cons]

theorem preorder_eq (outline : Outline) :
    outline.preorder = outline :: outline.callees.flatMap preorder := by
  rw [← preorders_eq_flatMap]
  cases outline
  rfl

theorem callsBy_eq_flatMap (caller : Outline) (callees : List Outline) :
    callsBy caller callees =
      callees.flatMap fun callee => (caller, callee) :: callee.calls := by
  induction callees with
  | nil =>
      rfl
  | cons callee rest ih =>
      rw [callsBy, ih, List.flatMap_cons, List.cons_append]

theorem calls_eq (outline : Outline) :
    outline.calls =
      outline.callees.flatMap fun callee => (outline, callee) :: callee.calls := by
  rw [← callsBy_eq_flatMap]
  cases outline
  rfl

end Outline

namespace CallTree

def outline (tree : CallTree) (id : Nat) : Outline :=
  match _hnode : tree.node? id with
  | none => ⟨"", "", []⟩
  | some node =>
      ⟨node.identity.context, node.identity.name,
        (node.children.filter (id < ·)).attach.map fun child => tree.outline child.1⟩
termination_by tree.size - id
decreasing_by
  have hid := lt_size_of_node? _hnode
  have hlt := of_decide_eq_true (List.mem_filter.mp child.2).2
  omega

theorem WellFormed.outline_eq {tree : CallTree} (hformed : tree.WellFormed) {id : Nat}
    {node : CallNode} (hnode : tree.node? id = some node) :
    tree.outline id =
      ⟨node.identity.context, node.identity.name, node.children.map tree.outline⟩ := by
  have hchildren := hformed.filter_children hnode
  rw [children_of_node? hnode] at hchildren
  rw [outline]
  split
  · rename_i hnone
    rw [hnode] at hnone
    cases hnone
  · rename_i found hfound
    rw [hnode] at hfound
    cases hfound
    rw [hchildren]
    simp only [List.map_subtype, List.unattach_attach]

end CallTree

/-!
## The walk
-/

namespace Diagram

def messageOf (call : Outline × Outline) : Message :=
  ⟨call.1.participant, call.2.participant, label call.2.name⟩

section

variable {tree : CallTree} {id : Nat} {node : CallNode}

theorem participantOf_eq (hformed : tree.WellFormed) (hnode : tree.node? id = some node) :
    participantOf tree id = (tree.outline id).participant := by
  rw [participantOf, hnode, hformed.outline_eq hnode]
  rfl

theorem messageTo?_child (hformed : tree.WellFormed) (hnode : tree.node? id = some node)
    {child : Nat} (hchild : child ∈ node.children) :
    messageTo? tree child = some (messageOf (tree.outline id, tree.outline child)) := by
  rcases hformed.child hnode hchild with ⟨below, hbelow, hparent⟩
  simp only [messageTo?, hbelow, hparent, Option.bind_eq_bind, Option.bind_some,
    participantOf_eq hformed hnode, Option.pure_def]
  rw [hformed.outline_eq hbelow]
  rfl

theorem messagesTo_cons (hformed : tree.WellFormed) (hnode : tree.node? id = some node)
    (rest : List Nat) :
    messagesTo tree (id :: rest) =
      (messageTo? tree id).toList ++
        ((tree.outline id).calls.map messageOf ++ messagesTo tree rest) := by
  revert rest
  apply hformed.bottomUp _ hnode
  intro id node hnode hbelow rest
  have hchildren : ∀ ids : List Nat, (∀ child ∈ ids, child ∈ node.children) →
      messagesTo tree (ids ++ rest) =
        (ids.flatMap fun child =>
          (tree.outline id, tree.outline child) :: (tree.outline child).calls).map messageOf
          ++ messagesTo tree rest := by
    intro ids hids
    induction ids with
    | nil =>
        rfl
    | cons child others ih =>
        have hchild := hids child List.mem_cons_self
        have hothers := ih fun other hother => hids other (List.mem_cons_of_mem child hother)
        rw [List.cons_append, hbelow child hchild, hothers,
          messageTo?_child hformed hnode hchild, List.flatMap_cons, List.map_append,
          List.map_cons]
        simp only [Option.toList_some, List.cons_append, List.nil_append, List.append_assoc]
  rw [messagesTo, hformed.filter_children hnode, hchildren _ fun _ hmem => hmem,
    Outline.calls_eq, hformed.outline_eq hnode, List.flatMap_map]

theorem messages_eq (hformed : tree.WellFormed) :
    messages tree = (tree.outline 0).calls.map messageOf := by
  rcases hformed.root with ⟨root, hroot, hparent, _⟩
  have hnone : messageTo? tree 0 = none := by
    simp only [messageTo?, hroot, hparent, Option.bind_eq_bind, Option.bind_some,
      Option.bind_none]
  rw [messages, messagesTo_cons hformed hroot, hnone, messagesTo]
  exact List.append_nil _

end

/-!
## Participants in the order of use
-/

theorem eraseDups_again {seen : List String} {id : String} (hid : id ∈ seen)
    (rest : List String) : (seen ++ id :: rest).eraseDups = (seen ++ rest).eraseDups := by
  have hcontains : ¬ seen.contains id = false := by
    simp [hid]
  rw [List.eraseDups_append, List.eraseDups_append, List.cons_removeAll, if_neg hcontains]

def ends (calls : List (Outline × Outline)) : List String :=
  calls.flatMap fun call => [call.1.participant, call.2.participant]

mutual

theorem eraseDups_calls (outline : Outline) (seen : List String)
    (hseen : outline.participant ∈ seen) (rest : List String) :
    (seen ++ (ends outline.calls ++ rest)).eraseDups =
      (seen ++ ((Outline.preorders outline.callees).map Outline.participant ++ rest)).eraseDups := by
  cases outline with
  | mk context name callees =>
      exact eraseDups_callsBy ⟨context, name, callees⟩ callees seen hseen rest

theorem eraseDups_callsBy (caller : Outline) (callees : List Outline) (seen : List String)
    (hseen : caller.participant ∈ seen) (rest : List String) :
    (seen ++ (ends (Outline.callsBy caller callees) ++ rest)).eraseDups =
      (seen ++ ((Outline.preorders callees).map Outline.participant ++ rest)).eraseDups := by
  cases callees with
  | nil =>
      rfl
  | cons callee others =>
      have hbelow := eraseDups_calls callee (seen ++ [callee.participant])
        (List.mem_append_right _ List.mem_cons_self)
        (ends (Outline.callsBy caller others) ++ rest)
      have hothers := eraseDups_callsBy caller others
        (seen ++ [callee.participant] ++
          (Outline.preorders callee.callees).map Outline.participant)
        (List.mem_append_left _ (List.mem_append_left _ hseen)) rest
      simp only [List.append_assoc, List.cons_append, List.nil_append] at hbelow hothers
      have hends : ends (Outline.callsBy caller (callee :: others)) =
          caller.participant :: callee.participant ::
            (ends callee.calls ++ ends (Outline.callsBy caller others)) := by
        rw [Outline.callsBy, ends, List.flatMap_cons, List.flatMap_append]
        rfl
      have hnodes : (Outline.preorders (callee :: others)).map Outline.participant =
          callee.participant :: ((Outline.preorders callee.callees).map Outline.participant ++
            (Outline.preorders others).map Outline.participant) := by
        rw [Outline.preorders, Outline.preorder_eq, ← Outline.preorders_eq_flatMap,
          List.map_append, List.map_cons, List.cons_append]
      rw [hends, hnodes]
      simp only [List.cons_append, List.append_assoc]
      rw [eraseDups_again hseen, hbelow, hothers]

end

theorem participants_eq {tree : CallTree} (hformed : tree.WellFormed)
    (request : Option Request) :
    participants tree request = (tree.outline 0).declared request := by
  rcases hformed.root with ⟨root, hroot, _, _⟩
  have hends : ((messages tree).flatMap fun message => [message.source, message.target]) =
      ends (tree.outline 0).calls := by
    rw [messages_eq hformed, List.flatMap_map]
    rfl
  have hcalls : ∀ seen : List String, (tree.outline 0).participant ∈ seen →
      (seen ++ ends (tree.outline 0).calls).eraseDups =
        (seen ++ (Outline.preorders (tree.outline 0).callees).map
          Outline.participant).eraseDups := by
    intro seen hseen
    have hsame := eraseDups_calls (tree.outline 0) seen hseen []
    rwa [List.append_nil, List.append_nil] at hsame
  rw [participants, hends, participantOf_eq hformed hroot, Outline.declared,
    Outline.preorder_eq, ← Outline.preorders_eq_flatMap, List.map_cons]
  cases request with
  | none =>
      exact hcalls [_] List.mem_cons_self
  | some request =>
      exact hcalls ["Client", _] (List.mem_cons_of_mem _ List.mem_cons_self)

/-!
## The lines
-/

theorem arrow_eq (source target text : String) :
    arrow source target text = (Statement.message source target text).line := by
  simp only [arrow, indent, Statement.line_message, String.append_assoc]

theorem ofList_client : String.ofList client = "Client" :=
  String.ofList_toList

theorem openingLines_eq (outline : Outline) (request : Option Request) :
    openingLines outline.participant request =
      (outline.opening request).map Statement.line := by
  cases request with
  | none =>
      rfl
  | some request =>
      have hnote : indent ("Note over " ++ outline.participant ++ ": " ++
          label request.handler ++ "()") =
            (Statement.note outline.participant (label request.handler ++ "()")).line := by
        rw [indent, Statement.line_note, ← String.append_assoc, ← String.append_assoc,
          ← String.append_assoc, ← String.append_assoc, ← String.append_assoc]
        rfl
      rw [openingLines, Outline.opening, List.map_cons, List.map_singleton, ofList_client,
        arrow_eq, hnote]

theorem closingLines_eq (outline : Outline) (request : Option Request) :
    closingLines outline.participant (outline.calls.map messageOf) request =
      (outline.closing request).map Statement.line := by
  cases request with
  | none =>
      rw [closingLines, Outline.closing]
      cases outline.calls with
      | nil =>
          exact congrArg (fun line => [line]) (arrow_eq _ _ _)
      | cons call rest =>
          rfl
  | some request =>
      have hresponse : indent (outline.participant ++ "-->>" ++ "Client" ++ ": response") =
          (Statement.response outline.participant "Client" "response").line := by
        rw [indent, Statement.line_response, ← String.append_assoc, ← String.append_assoc,
          ← String.append_assoc, @String.append_assoc _ ": " "response"]
        rfl
      rw [closingLines, Outline.closing, List.map_singleton, ofList_client, hresponse]

theorem lines_eq {tree : CallTree} (hformed : tree.WellFormed) (request : Option Request) :
    lines tree request = (tree.outline 0).lines request := by
  rcases hformed.root with ⟨root, hroot, _, _⟩
  have hcalls : (messages tree).map (fun call => arrow call.source call.target call.label) =
      ((tree.outline 0).calls.map Statement.ofCall).map Statement.line := by
    rw [messages_eq hformed, List.map_map, List.map_map]
    apply List.map_congr_left
    intro call _
    exact arrow_eq _ _ _
  simp only [lines, participantOf_eq hformed hroot, hcalls, participants_eq hformed,
    openingLines_eq]
  rw [messages_eq hformed, closingLines_eq, Outline.lines, Outline.statements]
  simp only [List.map_append, List.append_assoc, List.cons_append]
  rfl

/-!
## What is declared
-/

theorem nodup_eraseDups (ids : List String) : ids.eraseDups.Nodup := by
  induction hlength : ids.length using Nat.strongRecOn generalizing ids with
  | ind length ih =>
      cases ids with
      | nil =>
          exact List.nodup_nil
      | cons id rest =>
          have hshorter := List.length_filter_le (fun other => !other == id) rest
          rw [List.eraseDups_cons, List.nodup_cons, List.mem_eraseDups, List.mem_filter]
          rw [List.length_cons] at hlength
          refine ⟨fun hmem => ?_, ih _ (by omega) _ rfl⟩
          simp at hmem

theorem participant_mem_preorder {outline : Outline} {id : String}
    (hid : id ∈ ends outline.calls) : id ∈ outline.preorder.map Outline.participant := by
  have hsame := eraseDups_calls outline [outline.participant] List.mem_cons_self []
  have hmem : id ∈ ([outline.participant] ++ (ends outline.calls ++ [])).eraseDups := by
    simp [hid]
  rw [hsame, List.mem_eraseDups, List.append_nil] at hmem
  rw [Outline.preorder_eq, ← Outline.preorders_eq_flatMap]
  exact hmem

/-- The statements of a diagram. -/
inductive Said (outline : Outline) (request : Option Request) : Statement → Prop where
  | call {call : Outline × Outline} (hcall : call ∈ outline.calls) :
      Said outline request (.ofCall call)
  | requested {asked : Request} (hrequest : request = some asked) :
      Said outline request (.message "Client" outline.participant
        (asked.method.name ++ " " ++ label asked.path))
  | handled {asked : Request} (hrequest : request = some asked) :
      Said outline request (.note outline.participant (label asked.handler ++ "()"))
  | answered {asked : Request} (hrequest : request = some asked) :
      Said outline request (.response outline.participant "Client" "response")
  | alone (hnone : request = none) (hcalls : outline.calls = []) :
      Said outline request
        (.message outline.participant outline.participant "No outgoing calls found")

theorem said_of_mem {outline : Outline} {request : Option Request} {statement : Statement}
    (hmem : statement ∈ outline.statements request) : Said outline request statement := by
  rcases List.mem_append.mp hmem with hbefore | hclosing
  · rcases List.mem_append.mp hbefore with hopening | hmessage
    · cases request with
      | none =>
          cases hopening
      | some asked =>
          simp only [Outline.opening, List.mem_cons, List.not_mem_nil, or_false] at hopening
          rcases hopening with rfl | rfl
          · exact .requested rfl
          · exact .handled rfl
    · rcases List.mem_map.mp hmessage with ⟨call, hcall, rfl⟩
      exact .call hcall
  · cases request with
    | none =>
        rw [Outline.closing] at hclosing
        cases hcalls : outline.calls with
        | nil =>
            rw [hcalls, List.mem_singleton] at hclosing
            rw [hclosing]
            exact .alone rfl hcalls
        | cons call rest =>
            rw [hcalls] at hclosing
            cases hclosing
    | some asked =>
        rw [List.mem_singleton.mp hclosing]
        exact .answered rfl

theorem count_declared (outline : Outline) (request : Option Request) :
    ∀ statement ∈ outline.statements request, ∀ id ∈ statement.participants,
      (outline.declared request).count id = 1 := by
  intro statement hstatement id hid
  have hroot : outline.participant ∈ outline.preorder.map Outline.participant := by
    rw [Outline.preorder_eq]
    exact List.mem_cons_self
  apply List.count_eq_one_of_mem (nodup_eraseDups _)
  rw [List.mem_eraseDups, List.mem_append]
  cases said_of_mem hstatement with
  | call hcall =>
      exact Or.inr (participant_mem_preorder (List.mem_flatMap.mpr ⟨_, hcall, hid⟩))
  | requested hrequest =>
      rcases List.mem_cons.mp hid with rfl | hid
      · rw [hrequest]
        exact Or.inl List.mem_cons_self
      · rw [List.mem_singleton.mp hid]
        exact Or.inr hroot
  | handled hrequest =>
      rw [List.mem_singleton.mp hid]
      exact Or.inr hroot
  | answered hrequest =>
      rcases List.mem_cons.mp hid with rfl | hid
      · exact Or.inr hroot
      · rw [List.mem_singleton.mp hid, hrequest]
        exact Or.inl List.mem_cons_self
  | alone hnone hcalls =>
      rcases List.mem_cons.mp hid with rfl | hid
      · exact Or.inr hroot
      · rw [List.mem_singleton.mp hid]
        exact Or.inr hroot

theorem length_preorder {tree : CallTree} (hformed : tree.WellFormed) {id : Nat}
    {node : CallNode} (hnode : tree.node? id = some node) :
    (tree.preorder id).length = (tree.outline id).calls.length + 1 := by
  apply hformed.bottomUp _ hnode
  intro id node hnode hbelow
  rw [hformed.preorder_eq hnode, List.length_cons, Outline.calls_eq, hformed.outline_eq hnode,
    List.flatMap_map, List.length_flatMap, List.length_flatMap]
  congr 2
  exact List.map_congr_left hbelow

theorem length_calls {tree : CallTree} (hformed : tree.WellFormed) :
    (tree.outline 0).calls.length = tree.size - 1 := by
  rcases hformed.root with ⟨root, hroot, _, _⟩
  have hlength := length_preorder hformed hroot
  rw [hformed.preorder_perm.length_eq, List.length_range] at hlength
  omega

/-- The diagram of a tree that is built consists of the lines of its outline.  Every id that
is used is declared once, there are as many calls as nodes without the root, and two trees
with one outline have one diagram. -/
theorem render_outline {tree : CallTree} (hbuilt : tree.Built) (request : Option Request) :
    render tree request = "\n".intercalate ((tree.outline 0).lines request) ∧
    (∀ statement ∈ (tree.outline 0).statements request, ∀ id ∈ statement.participants,
      ((tree.outline 0).declared request).count id = 1) ∧
    (tree.outline 0).calls.length = tree.size - 1 ∧
    ∀ other : CallTree, other.Built → other.outline 0 = tree.outline 0 →
      render other request = render tree request := by
  have hrender : ∀ {tree : CallTree}, tree.Built →
      render tree request = "\n".intercalate ((tree.outline 0).lines request) := by
    intro tree hbuilt
    rw [render, lines_eq hbuilt.wellFormed]
  refine ⟨hrender hbuilt, count_declared _ request, length_calls hbuilt.wellFormed, ?_⟩
  intro other hother houtline
  rw [hrender hbuilt, hrender hother, houtline]

def postOutline : Outline :=
  ⟨"Ledger", "post", [⟨"Ledger", "lookup", []⟩, ⟨"Ledger", "post", []⟩,
    ⟨"Ledger", "store", []⟩]⟩

theorem render_outline_ledger :
    ∃ tree other,
      (CallTree.build ⟨1, 7⟩ ⟨5000, none⟩ Ledger.oracle Ledger.place () .start).result
        = .ok (some tree) ∧
      (CallTree.build ⟨6, 4⟩ ⟨1000, none⟩ Ledger.oracle Ledger.place () .start).result
        = .ok (some other) ∧
      tree.marks = [none, some .depthLimit, some .cycle, some .depthLimit] ∧
      other.marks = [none, some .oracleFailure, some .cycle, some .nodeLimit] ∧
      render other none = render tree none ∧
      render tree none = "\n".intercalate [
        "sequenceDiagram",
        "    participant Ledger.post",
        "    participant Ledger.lookup",
        "    participant Ledger.store",
        "    Ledger.post->>Ledger.lookup: lookup",
        "    Ledger.post->>Ledger.post: post",
        "    Ledger.post->>Ledger.store: store"] := by
  have htree : ∃ tree,
      (CallTree.build ⟨1, 7⟩ ⟨5000, none⟩ Ledger.oracle Ledger.place () .start).result
        = .ok (some tree) := ⟨_, by cbv⟩
  have hother : ∃ other,
      (CallTree.build ⟨6, 4⟩ ⟨1000, none⟩ Ledger.oracle Ledger.place () .start).result
        = .ok (some other) := ⟨_, by cbv⟩
  rcases htree with ⟨tree, htree⟩
  rcases hother with ⟨other, hother⟩
  have houtline : tree.outline 0 = postOutline :=
    Ledger.eq_of_result (f := fun tree => tree.outline 0) htree (by cbv)
  have hsame : other.outline 0 = postOutline :=
    Ledger.eq_of_result (f := fun tree => tree.outline 0) hother (by cbv)
  rcases render_outline (.finished htree) none with ⟨hrender, _, _, hothers⟩
  refine ⟨tree, other, htree, hother, Ledger.eq_of_result (f := CallTree.marks) htree (by cbv),
    Ledger.eq_of_result (f := CallTree.marks) hother (by cbv),
    hothers other (.finished hother) (hsame.trans houtline.symm), ?_⟩
  rw [hrender, houtline]
  rfl

end Diagram

end EndpointTrace
