import EndpointTrace.Proofs.Diagram.Participants
import EndpointTrace.Proofs.Text.Characters

/-!
# Ends of the lines of a diagram

A line ends with an id, with words of the diagram or with a label.  None of these ends in
white space, but a label may have nothing in it: if the name of a callee or the path of a
request is all white space, semicolons and number signs, its line ends with the space in front
of the label.  There is no other line that ends in white space.
-/

namespace EndpointTrace

namespace Diagram

/-!
## Texts without white space at the end
-/

def Trimmed (text : String) : Prop :=
  Text.trimEnd text.toList = text.toList

theorem trimmed_iff {text : String} :
    Trimmed text ↔ ∀ c ∈ text.toList.getLast?, Text.isBlank c = false :=
  Text.trimEnd_eq_self_iff

theorem trimmed_append {first second : String} (hsecond : second ≠ "") :
    Trimmed (first ++ second) ↔ Trimmed second := by
  have hsome : second.toList ≠ [] := by
    intro hnil
    exact hsecond (String.toList_eq_nil_iff.mp hnil)
  rw [trimmed_iff, trimmed_iff, String.toList_append,
    List.getLast?_append_of_ne_nil _ hsome]

theorem Trimmed.append {first second : String} (htrimmed : Trimmed second)
    (hsecond : second ≠ "") : Trimmed (first ++ second) :=
  (trimmed_append hsecond).mpr htrimmed

theorem trimmed_label (text : String) : Trimmed (label text) := by
  rw [trimmed_iff, label, String.toList_ofList]
  exact Text.isBlank_of_mem_getLast?_trim _

theorem isBlank_of_idChar {c : Char}
    (hchar : Text.isAlphanumeric c = true ∨ c = '_' ∨ c = '.') : Text.isBlank c = false := by
  rcases hchar with halphanumeric | rfl | rfl
  · rw [Bool.eq_false_iff]
    intro hblank
    rw [Text.isAlphanumeric_of_isBlank hblank] at halphanumeric
    cases halphanumeric
  · decide
  · decide

theorem usable_outline (outline : Outline) : Usable outline.participant.toList :=
  usable_participant ⟨outline.name, outline.context, default⟩

theorem trimmed_of_usable {id : String} (husable : Usable id.toList) : Trimmed id := by
  rw [trimmed_iff]
  intro c hlast
  exact isBlank_of_idChar (husable.chars c (List.mem_of_getLast? hlast))

/-!
## Labels without a text
-/

/-- There is nothing to read in a label: white space, and characters that a label leaves
out. -/
def Unreadable (text : String) : Prop :=
  ∀ c ∈ text.toList, Text.isBlank c = true ∨ c ∈ breaking

instance (text : String) : Decidable (Unreadable text) :=
  List.decidableBAll _ _

theorem label_eq_empty_iff {text : String} : label text = "" ↔ Unreadable text := by
  have hchar : ∀ c : Char,
      Text.isBlank (if c ∈ ['\n', '\r', ';', '#'] then ' ' else c) = true ↔
        Text.isBlank c = true ∨ c ∈ breaking := by
    intro c
    rw [show ['\n', '\r', ';', '#'] = breaking from rfl]
    split
    · rename_i hbreaking
      exact iff_of_true (by decide) (Or.inr hbreaking)
    · rename_i hplain
      rw [or_iff_left hplain]
  rw [label, String.ofList_eq_empty_iff, labelChars, Text.trim_eq_nil_iff, List.all_eq_true]
  simp only [List.forall_mem_map, hchar]
  rfl

section

variable {front : String}

theorem trimmed_label_iff {text : String} :
    Trimmed (front ++ " " ++ label text) ↔ ¬ Unreadable text := by
  rw [← label_eq_empty_iff]
  by_cases hempty : label text = ""
  · have hspace : (front ++ " ").toList.getLast? = some ' ' := by
      rw [String.toList_append, List.getLast?_append_of_ne_nil _ (by decide)]
      rfl
    rw [hempty, String.append_empty, trimmed_iff, hspace]
    refine iff_of_false ?_ (not_not_intro rfl)
    intro hlast
    exact absurd (hlast ' ' rfl) (by decide)
  · exact iff_of_true ((trimmed_label text).append hempty) hempty

/-- A line ends in no white space, or in one space. -/
def EndsInOneSpaceAtMost (line : String) : Prop :=
  Trimmed line ∨ ∃ front, Trimmed front ∧ line = front ++ " "

theorem endsInOneSpaceAtMost_label (hfront : Trimmed front) (text : String) :
    EndsInOneSpaceAtMost (front ++ " " ++ label text) := by
  by_cases hempty : label text = ""
  · rw [hempty, String.append_empty]
    exact Or.inr ⟨front, hfront, rfl⟩
  · exact Or.inl ((trimmed_label text).append hempty)

end

/-!
## Lines
-/

theorem trimmed_method (method : Method) : Trimmed method.name := by
  cases method <;> rfl

theorem line_ofCall (call : Outline × Outline) :
    (Statement.ofCall call).line =
      "    " ++ call.1.participant ++ "->>" ++ call.2.participant ++ ":" ++ " " ++
        label call.2.name := by
  have hcolon : ": " = ":" ++ " " := rfl
  rw [Statement.ofCall, Statement.line_message, hcolon, ← String.append_assoc]

theorem line_requested (root : String) (asked : Request) :
    (Statement.message "Client" root (asked.method.name ++ " " ++ label asked.path)).line =
      "    " ++ "Client" ++ "->>" ++ root ++ ": " ++ asked.method.name ++ " " ++
        label asked.path := by
  rw [Statement.line_message, ← String.append_assoc, ← String.append_assoc]

section

variable {outline : Outline} {request : Option Request} {statement : Statement}

/-- What is said ends in white space only if it is a call of a callee without a readable name
or a request for such a path. -/
theorem trimmed_of_said (hsaid : Said outline request statement)
    (hnames : ∀ call ∈ outline.calls, ¬ Unreadable call.2.name)
    (hpath : ∀ asked, request = some asked → ¬ Unreadable asked.path) :
    Trimmed statement.line := by
  cases hsaid with
  | @call call hcall =>
      rw [line_ofCall]
      exact trimmed_label_iff.mpr (hnames call hcall)
  | @requested asked hrequest =>
      rw [line_requested]
      exact trimmed_label_iff.mpr (hpath asked hrequest)
  | @handled asked hrequest =>
      rw [Statement.line_note, ← String.append_assoc]
      exact Trimmed.append rfl (by decide)
  | answered hrequest =>
      rw [Statement.line_response]
      exact Trimmed.append rfl (by decide)
  | alone hnone hcalls =>
      rw [Statement.line_message]
      exact Trimmed.append rfl (by decide)

theorem endsInOneSpaceAtMost_of_said (hsaid : Said outline request statement) :
    EndsInOneSpaceAtMost statement.line := by
  cases hsaid with
  | @call call hcall =>
      have hcolon : Trimmed ":" := rfl
      rw [line_ofCall]
      exact endsInOneSpaceAtMost_label (hcolon.append (by decide)) _
  | @requested asked hrequest =>
      have hmethod : asked.method.name ≠ "" := by
        cases asked.method <;> decide
      rw [line_requested]
      exact endsInOneSpaceAtMost_label ((trimmed_method asked.method).append hmethod) _
  | @handled asked hrequest =>
      rw [Statement.line_note, ← String.append_assoc]
      exact Or.inl (Trimmed.append rfl (by decide))
  | answered hrequest =>
      rw [Statement.line_response]
      exact Or.inl (Trimmed.append rfl (by decide))
  | alone hnone hcalls =>
      rw [Statement.line_message]
      exact Or.inl (Trimmed.append rfl (by decide))

end

section

variable (outline : Outline) (request : Option Request)

theorem usable_declared : ∀ id ∈ outline.declared request, id = "Client" ∨ Usable id.toList := by
  intro id hid
  rw [Outline.declared, List.mem_eraseDups, List.mem_append] at hid
  rcases hid with hclient | hnode
  · cases request with
    | none =>
        cases hclient
    | some asked =>
        exact Or.inl (List.mem_singleton.mp hclient)
  · rcases List.mem_map.mp hnode with ⟨node, _, rfl⟩
    exact Or.inr (usable_outline node)

theorem trimmed_header :
    ∀ line ∈ "sequenceDiagram" ::
      (outline.declared request).map (fun id => "    participant " ++ id), Trimmed line := by
  intro line hline
  rcases List.mem_cons.mp hline with rfl | hdeclared
  · rfl
  · rcases List.mem_map.mp hdeclared with ⟨id, hid, rfl⟩
    rcases usable_declared outline request id hid with rfl | husable
    · rfl
    · apply (trimmed_of_usable husable).append
      intro hempty
      apply husable.ne_nil
      rw [hempty]
      rfl

theorem forall_trimmed_iff :
    (∀ line ∈ outline.lines request, Trimmed line) ↔
      (∀ call ∈ outline.calls, ¬ Unreadable call.2.name) ∧
        ∀ asked, request = some asked → ¬ Unreadable asked.path := by
  constructor
  · intro htrimmed
    have hstatement : ∀ statement ∈ outline.statements request, Trimmed statement.line :=
      fun statement hmem => htrimmed _ (List.mem_append_right _ (List.mem_map_of_mem hmem))
    constructor
    · intro call hcall
      have hline := hstatement (.ofCall call)
        (List.mem_append_left _ (List.mem_append_right _ (List.mem_map_of_mem hcall)))
      rw [line_ofCall] at hline
      exact trimmed_label_iff.mp hline
    · intro asked hrequest
      have hline := hstatement (.message "Client" outline.participant
        (asked.method.name ++ " " ++ label asked.path))
        (List.mem_append_left _ (List.mem_append_left _ (by
          rw [hrequest]
          exact List.mem_cons_self)))
      rw [line_requested] at hline
      exact trimmed_label_iff.mp hline
  · intro hreadable line hline
    rcases List.mem_append.mp hline with hheader | hstatement
    · exact trimmed_header outline request line hheader
    · rcases List.mem_map.mp hstatement with ⟨statement, hmem, rfl⟩
      exact trimmed_of_said (said_of_mem hmem) hreadable.1 hreadable.2

theorem forall_endsInOneSpaceAtMost :
    ∀ line ∈ outline.lines request, EndsInOneSpaceAtMost line := by
  intro line hline
  rcases List.mem_append.mp hline with hheader | hstatement
  · exact Or.inl (trimmed_header outline request line hheader)
  · rcases List.mem_map.mp hstatement with ⟨statement, hmem, rfl⟩
    exact endsInOneSpaceAtMost_of_said (said_of_mem hmem)

end

/-!
## The callees of a tree
-/

section

variable {tree : CallTree} {id : Nat} {node : CallNode}

theorem map_callee_calls (hformed : tree.WellFormed) (hnode : tree.node? id = some node) :
    (tree.outline id).calls.map Prod.snd = (tree.preorder id).tail.map tree.outline := by
  apply hformed.bottomUp _ hnode
  intro id node hnode hbelow
  rw [hformed.preorder_eq hnode, List.tail_cons, Outline.calls_eq, hformed.outline_eq hnode,
    List.flatMap_map, List.map_flatMap, List.map_flatMap]
  apply List.flatMap_congr
  intro child hchild
  rcases hformed.child hnode hchild with ⟨below, hbelowNode, _⟩
  have hcalls := hbelow child hchild
  rw [hformed.preorder_eq hbelowNode, List.tail_cons] at hcalls
  rw [List.map_cons, hcalls, hformed.preorder_eq hbelowNode, List.map_cons]

theorem mem_tail_preorder_iff (hformed : tree.WellFormed) :
    id ∈ (tree.preorder 0).tail ↔ id < tree.size ∧ id ≠ 0 := by
  rcases hformed.root with ⟨root, hroot, _, _⟩
  have hmem := hformed.preorder_perm.mem_iff (a := id)
  have hnodup : (tree.preorder 0).Nodup := hformed.preorder_perm.nodup_iff.mpr List.nodup_range
  rw [List.mem_range, hformed.preorder_eq hroot, List.mem_cons] at hmem
  rw [hformed.preorder_eq hroot, List.nodup_cons] at hnodup
  rw [hformed.preorder_eq hroot, List.tail_cons, ← hmem]
  constructor
  · intro hbelow
    refine ⟨Or.inr hbelow, ?_⟩
    intro hzero
    rw [hzero] at hbelow
    exact hnodup.1 hbelow
  · intro hother
    exact hother.1.resolve_left hother.2

theorem forall_callee_iff (hformed : tree.WellFormed) (readable : String → Prop) :
    (∀ call ∈ (tree.outline 0).calls, readable call.2.name) ↔
      ∀ id node, tree.node? id = some node → id ≠ 0 → readable node.identity.name := by
  rcases hformed.root with ⟨root, hroot, _, _⟩
  have hcallees := map_callee_calls hformed hroot
  have hname : ∀ {id : Nat} {node : CallNode}, tree.node? id = some node →
      (tree.outline id).name = node.identity.name := by
    intro id node hnode
    rw [hformed.outline_eq hnode]
  constructor
  · intro hcalls id node hnode hid
    have hmem : tree.outline id ∈ (tree.outline 0).calls.map Prod.snd := by
      rw [hcallees]
      exact List.mem_map_of_mem
        ((mem_tail_preorder_iff hformed).mpr ⟨CallTree.lt_size_of_node? hnode, hid⟩)
    rcases List.mem_map.mp hmem with ⟨call, hcall, hcallee⟩
    have hreadable := hcalls call hcall
    rw [hcallee, hname hnode] at hreadable
    exact hreadable
  · intro hnodes call hcall
    have hmem : call.2 ∈ (tree.preorder 0).tail.map tree.outline := by
      rw [← hcallees]
      exact List.mem_map_of_mem hcall
    rcases List.mem_map.mp hmem with ⟨id, hid, hcallee⟩
    rcases (mem_tail_preorder_iff hformed).mp hid with ⟨hlt, hne⟩
    rcases CallTree.exists_node?_of_lt hlt with ⟨node, hnode⟩
    rw [← hcallee, hname hnode]
    exact hnodes id node hnode hne

end

/-- The lines of a diagram end in no white space, unless there is nothing to read in the name
of a callee or in the path of the request; then the line of the call or of the request ends
in one space, and no line ends in more. -/
theorem line_ends {tree : CallTree} (hbuilt : tree.Built) (request : Option Request) :
    ((∀ line ∈ (render tree request).toList.splitOn '\n', Text.trimEnd line = line) ↔
      (∀ id node, tree.node? id = some node → id ≠ 0 → ¬ Unreadable node.identity.name) ∧
        ∀ asked, request = some asked → ¬ Unreadable asked.path) ∧
    ∀ line ∈ (render tree request).toList.splitOn '\n', Text.trimEnd line = line ∨
      ∃ front, Text.trimEnd front = front ∧ line = front ++ [' '] := by
  have hformed := hbuilt.wellFormed
  rw [splitOn_render hformed]
  constructor
  · rw [List.forall_mem_map]
    exact (forall_trimmed_iff (tree.outline 0) request).trans
      (and_congr_left' (forall_callee_iff hformed fun name => ¬ Unreadable name))
  · intro chars hchars
    rcases List.mem_map.mp hchars with ⟨line, hline, rfl⟩
    rcases forall_endsInOneSpaceAtMost (tree.outline 0) request line hline with
      htrimmed | ⟨front, hfront, heq⟩
    · exact Or.inl htrimmed
    · rw [heq, String.toList_append]
      exact Or.inr ⟨front.toList, hfront, rfl⟩

theorem line_ends_ledger :
    ∃ tree,
      (CallTree.build ⟨1, 7⟩ ⟨5000, none⟩ Ledger.oracle Ledger.place () .start).result
        = .ok (some tree) ∧
      (∀ line ∈ (render tree (some ⟨.post, "/entries", ";"⟩)).toList.splitOn '\n',
        Text.trimEnd line = line) ∧
      ¬ ∀ line ∈ (render tree (some ⟨.post, " #", "post"⟩)).toList.splitOn '\n',
        Text.trimEnd line = line := by
  have htree : ∃ tree,
      (CallTree.build ⟨1, 7⟩ ⟨5000, none⟩ Ledger.oracle Ledger.place () .start).result
        = .ok (some tree) := ⟨_, by cbv⟩
  rcases htree with ⟨tree, htree⟩
  have hnames : (tree.nodes.toList.map fun node => node.identity.name) =
      ["post", "lookup", "post", "store"] :=
    Ledger.eq_of_result (f := fun tree => tree.nodes.toList.map fun node => node.identity.name)
      htree (by cbv)
  have hreadable : ∀ name ∈ ["post", "lookup", "post", "store"], ¬ Unreadable name := by
    decide +kernel
  have hends := fun request => line_ends (.finished htree) request
  refine ⟨tree, htree, (hends _).1.mpr ⟨?_, ?_⟩, ?_⟩
  · intro id node hnode _
    apply hreadable
    rw [← hnames]
    exact List.mem_map_of_mem (Array.mem_toList_iff.mpr (Array.mem_of_getElem? hnode))
  · intro asked hasked
    cases hasked
    decide +kernel
  · intro htrimmed
    have hpath := ((hends _).1.mp htrimmed).2 _ rfl
    exact hpath (by decide +kernel)

def unreadable : Oracle Unit :=
  .fixed (fun _ _ => .immediate (.ok [⟨"a", "Svc", Ledger.place⟩]))
    fun identity =>
      if identity.name = "a" then
        .immediate (.ok [⟨⟨";", "Svc", Ledger.place⟩, []⟩])
      else
        .immediate (.ok [])

theorem not_trimmed_unreadable :
    ∃ tree,
      (CallTree.build ⟨6, 512⟩ ⟨1000, none⟩ unreadable Ledger.place () .start).result
        = .ok (some tree) ∧
      ¬ ∀ line ∈ (render tree none).toList.splitOn '\n', Text.trimEnd line = line := by
  have htree : ∃ tree,
      (CallTree.build ⟨6, 512⟩ ⟨1000, none⟩ unreadable Ledger.place () .start).result
        = .ok (some tree) := ⟨_, by cbv⟩
  rcases htree with ⟨tree, htree⟩
  have houtline : tree.outline 0 = ⟨"Svc", "a", [⟨"Svc", ";", []⟩]⟩ :=
    Ledger.eq_of_result (f := fun tree => tree.outline 0) htree (by cbv)
  refine ⟨tree, htree, ?_⟩
  rw [splitOn_render (CallTree.Built.finished htree).wellFormed, houtline]
  decide +kernel

end Diagram

end EndpointTrace
