import EndpointTrace.Proofs.Diagram.Outline
import EndpointTrace.Proofs.Text.Matching
import EndpointTrace.Proofs.Text.Trimming

/-!
# Names in the lines of a diagram

Whatever a name, a context or a path consists of, it stays inside its line and inside its
part of the line.  An id has only letters, digits, underscores and dots, and a label no
character that ends a line or a message or begins a comment; so a text breaks into its lines
again, and a message into its two ids and its label.
-/

namespace EndpointTrace

namespace Diagram

/-!
## Characters of ids and labels
-/

theorem mem_sanitize {c : Char} {cs : List Char} (hmem : c ∈ sanitize cs) :
    isIdChar c = true := by
  rw [sanitize, trimUnderscores, List.mem_reverse] at hmem
  have hback := List.mem_reverse.mp ((List.dropWhile_sublist _).subset hmem)
  rcases List.mem_map.mp ((List.dropWhile_sublist _).subset hback) with ⟨old, _, rfl⟩
  split
  · assumption
  · decide

theorem mem_unreserved {c : Char} {id : List Char} (hmem : c ∈ unreserved id) :
    c ∈ id ∨ c = '_' := by
  rw [unreserved] at hmem
  split at hmem
  · simpa using hmem
  · exact Or.inl hmem

theorem mem_participantChars {c : Char} {context name : List Char}
    (hmem : c ∈ participantChars context name) : isIdChar c = true ∨ c = '.' := by
  have hunreserved : ∀ {cs : List Char}, c ∈ unreserved (sanitize cs) →
      isIdChar c = true := by
    intro cs hc
    rcases mem_unreserved hc with hold | rfl
    · exact mem_sanitize hold
    · decide
  rw [participantChars] at hmem
  split at hmem
  · exact Or.inl (List.all_eq_true.mp (by decide : placeholder.all isIdChar = true) c hmem)
  · exact Or.inl (hunreserved hmem)
  · exact Or.inl (hunreserved hmem)
  · rcases List.mem_append.mp hmem with hcontext | hname
    · exact Or.inl (mem_sanitize hcontext)
    · rcases List.mem_cons.mp hname with rfl | hname
      · exact Or.inr rfl
      · exact Or.inl (mem_sanitize hname)

/-- The characters that could end a line or a message, or begin a comment. -/
def breaking : List Char := ['\n', '\r', ';', '#']

theorem mem_labelChars {c : Char} {cs : List Char} (hmem : c ∈ labelChars cs) :
    c ∉ breaking := by
  rcases List.mem_map.mp (Text.mem_of_mem_trim hmem) with ⟨old, _, rfl⟩
  split
  · decide
  · assumption

theorem not_mem_participant (outline : Outline) {c : Char} (hid : isIdChar c = false)
    (hdot : c ≠ '.') : c ∉ outline.participant.toList := by
  rw [Outline.participant, String.toList_ofList]
  intro hmem
  rcases mem_participantChars hmem with hchar | heq
  · rw [hid] at hchar
    cases hchar
  · exact hdot heq

/-!
## Lines without breaks
-/

def Unbroken (text : String) : Prop :=
  ∀ c ∈ text.toList, c ∉ breaking

theorem unbroken_of_all {text : String}
    (hall : text.toList.all (fun c => !breaking.contains c) = true) : Unbroken text := by
  intro c hc hbreak
  have hplain := List.all_eq_true.mp hall c hc
  simp [hbreak] at hplain

theorem Unbroken.append {first second : String} (hfirst : Unbroken first)
    (hsecond : Unbroken second) : Unbroken (first ++ second) := by
  intro c hc
  rw [String.toList_append, List.mem_append] at hc
  rcases hc with hmem | hmem
  · exact hfirst c hmem
  · exact hsecond c hmem

theorem unbroken_participant (outline : Outline) : Unbroken outline.participant := by
  intro c hc hbreak
  simp only [breaking, List.mem_cons, List.not_mem_nil, or_false] at hbreak
  rcases hbreak with rfl | rfl | rfl | rfl
  · exact not_mem_participant outline (by decide) (by decide) hc
  · exact not_mem_participant outline (by decide) (by decide) hc
  · exact not_mem_participant outline (by decide) (by decide) hc
  · exact not_mem_participant outline (by decide) (by decide) hc

theorem unbroken_label (text : String) : Unbroken (label text) := by
  intro c hc
  rw [label, String.toList_ofList] at hc
  exact mem_labelChars hc

theorem unbroken_method (method : Method) : Unbroken method.name := by
  cases method <;> exact unbroken_of_all rfl

theorem unbroken_message {source target text : String} (hsource : Unbroken source)
    (htarget : Unbroken target) (htext : Unbroken text) :
    Unbroken (Statement.message source target text).line := by
  rw [Statement.line_message]
  exact ((((Unbroken.append (unbroken_of_all rfl) hsource).append (unbroken_of_all rfl)).append htarget).append
    (unbroken_of_all rfl)).append htext

theorem unbroken_statement (outline : Outline) (request : Option Request) :
    ∀ statement ∈ outline.statements request, Unbroken statement.line := by
  intro statement hstatement
  have hroot := unbroken_participant outline
  cases said_of_mem hstatement with
  | @call call hcall =>
      exact unbroken_message (unbroken_participant call.1) (unbroken_participant call.2)
        (unbroken_label call.2.name)
  | @requested asked hrequest =>
      exact unbroken_message (unbroken_of_all rfl) hroot
        (((unbroken_method asked.method).append (unbroken_of_all rfl)).append
          (unbroken_label asked.path))
  | @handled asked hrequest =>
      rw [Statement.line_note]
      exact (((unbroken_of_all rfl).append hroot).append (unbroken_of_all rfl)).append
        ((unbroken_label asked.handler).append (unbroken_of_all rfl))
  | answered hrequest =>
      rw [Statement.line_response]
      exact (((((unbroken_of_all rfl).append hroot).append (unbroken_of_all rfl)).append
        (unbroken_of_all rfl)).append (unbroken_of_all rfl)).append (unbroken_of_all rfl)
  | alone hnone hcalls =>
      exact unbroken_message hroot hroot (unbroken_of_all rfl)

theorem unbroken_declared (outline : Outline) (request : Option Request) :
    ∀ id ∈ outline.declared request, Unbroken id := by
  intro id hid
  rw [Outline.declared, List.mem_eraseDups, List.mem_append] at hid
  rcases hid with hclient | hnode
  · cases request with
    | none =>
        cases hclient
    | some request =>
        rw [List.mem_singleton.mp hclient]
        exact unbroken_of_all rfl
  · rcases List.mem_map.mp hnode with ⟨node, _, rfl⟩
    exact unbroken_participant node

theorem unbroken_line (outline : Outline) (request : Option Request) :
    ∀ line ∈ outline.lines request, Unbroken line := by
  intro line hline
  rcases List.mem_append.mp hline with hheader | hstatement
  · rcases List.mem_cons.mp hheader with rfl | hdeclared
    · exact unbroken_of_all rfl
    · rcases List.mem_map.mp hdeclared with ⟨id, hid, rfl⟩
      exact (unbroken_of_all rfl).append (unbroken_declared outline request id hid)
  · rcases List.mem_map.mp hstatement with ⟨statement, hmem, rfl⟩
    exact unbroken_statement outline request statement hmem

/-!
## The lines of a text
-/

theorem splitOn_intercalate {texts : List String} (htexts : texts ≠ [])
    (hunbroken : ∀ text ∈ texts, Unbroken text) :
    ("\n".intercalate texts).toList.splitOn '\n' = texts.map String.toList := by
  rw [String.toList_intercalate]
  apply List.splitOn_intercalate
  · intro chars hchars hmem
    rcases List.mem_map.mp hchars with ⟨text, htext, rfl⟩
    exact hunbroken text htext '\n' hmem (by decide)
  · simpa using htexts

theorem mem_intercalate {texts : List String} {c : Char}
    (hmem : c ∈ ("\n".intercalate texts).toList) :
    c = '\n' ∨ ∃ text ∈ texts, c ∈ text.toList := by
  induction texts with
  | nil =>
      rw [String.intercalate_nil] at hmem
      cases hmem
  | cons text rest ih =>
      cases rest with
      | nil =>
          rw [String.intercalate_singleton] at hmem
          exact Or.inr ⟨text, List.mem_cons_self, hmem⟩
      | cons next others =>
          rw [String.intercalate_cons_cons, String.toList_append, String.toList_append,
            List.mem_append, List.mem_append] at hmem
          rcases hmem with (hfirst | hfeed) | hrest
          · exact Or.inr ⟨text, List.mem_cons_self, hfirst⟩
          · exact Or.inl (List.mem_singleton.mp hfeed)
          · rcases ih hrest with heq | ⟨found, hfound, hc⟩
            · exact Or.inl heq
            · exact Or.inr ⟨found, List.mem_cons_of_mem text hfound, hc⟩

def readMessage (line : List Char) : Option (List Char × List Char × List Char) := do
  let unindented ← Text.after? [' ', ' ', ' ', ' '] line
  let (source, rest) ← Text.cut? ['-', '>', '>'] unindented
  let (target, text) ← Text.cut? [':', ' '] rest
  pure (source, target, text)

theorem toList_message (source target text : String) :
    (Statement.message source target text).line.toList =
      [' ', ' ', ' ', ' '] ++ (source.toList ++ (['-', '>', '>'] ++
        (target.toList ++ ([':', ' '] ++ text.toList)))) := by
  have hindent : "    ".toList = [' ', ' ', ' ', ' '] := rfl
  have harrow : "->>".toList = ['-', '>', '>'] := rfl
  have hcolon : ": ".toList = [':', ' '] := rfl
  simp only [Statement.line_message, String.toList_append, hindent, harrow, hcolon, List.append_assoc]

theorem readMessage_ofCall (call : Outline × Outline) :
    readMessage (Statement.ofCall call).line.toList =
      some (call.1.participant.toList, call.2.participant.toList,
        (label call.2.name).toList) := by
  have hsource : '-' ∉ call.1.participant.toList :=
    not_mem_participant call.1 (by decide) (by decide)
  have htarget : ':' ∉ call.2.participant.toList :=
    not_mem_participant call.2 (by decide) (by decide)
  rw [Statement.ofCall, toList_message, readMessage, Text.after?_append]
  simp only [Option.bind_eq_bind, Option.bind_some, Text.cut?_append hsource,
    Text.cut?_append htarget, Option.pure_def]

theorem length_statements {tree : CallTree} (hformed : tree.WellFormed)
    (request : Option Request) :
    ((tree.outline 0).statements request).length =
      tree.size - 1 + if request.isSome then 3 else if tree.size = 1 then 1 else 0 := by
  have hcalls := length_calls hformed
  have hsize : tree.size ≠ 0 := by
    rcases hformed.root with ⟨root, hroot, _, _⟩
    have hid := CallTree.lt_size_of_node? hroot
    omega
  rw [Outline.statements, List.length_append, List.length_append, List.length_map, hcalls]
  cases request with
  | some request =>
      simp only [Outline.opening, Outline.closing, List.length_cons, List.length_nil,
        Option.isSome_some, if_true]
      omega
  | none =>
      rw [Outline.closing]
      cases hlist : (tree.outline 0).calls with
      | nil =>
          rw [hlist, List.length_nil] at hcalls
          have hone : tree.size = 1 := by omega
          simp [Outline.opening, hone]
      | cons call rest =>
          rw [hlist, List.length_cons] at hcalls
          have hmany : tree.size ≠ 1 := by omega
          simp [Outline.opening, hmany]

/-- The lines of a diagram between the participants and what stands before and after the
calls. -/
def callLines (tree : CallTree) (request : Option Request) : List (List Char) :=
  (((render tree request).toList.splitOn '\n').drop
    (1 + (participants tree request).length + if request.isSome then 2 else 0)).take
      (tree.size - 1)

theorem length_opening (outline : Outline) (request : Option Request) :
    (outline.opening request).length = if request.isSome then 2 else 0 := by
  cases request <;> rfl

theorem splitOn_render {tree : CallTree} (hformed : tree.WellFormed)
    (request : Option Request) :
    (render tree request).toList.splitOn '\n' =
      ((tree.outline 0).lines request).map String.toList := by
  rw [render, lines_eq hformed]
  exact splitOn_intercalate (List.cons_ne_nil _ _) (unbroken_line (tree.outline 0) request)

theorem callLines_eq {tree : CallTree} (hformed : tree.WellFormed)
    (request : Option Request) :
    callLines tree request =
      (tree.outline 0).calls.map fun call => (Statement.ofCall call).line.toList := by
  let before := "sequenceDiagram" ::
    ((tree.outline 0).declared request).map (fun id => "    participant " ++ id) ++
      ((tree.outline 0).opening request).map Statement.line
  have hlines : (tree.outline 0).lines request =
      before ++ (((tree.outline 0).calls.map Statement.ofCall).map Statement.line ++
        ((tree.outline 0).closing request).map Statement.line) := by
    simp only [before, Outline.lines, Outline.statements, List.map_append, List.append_assoc,
      List.cons_append]
  have hbefore : (before.map String.toList).length =
      1 + (participants tree request).length + if request.isSome then 2 else 0 := by
    rw [List.length_map, List.length_append, List.length_cons, List.length_map,
      List.length_map, length_opening, participants_eq hformed]
    omega
  have hcalls : ((((tree.outline 0).calls.map Statement.ofCall).map Statement.line).map
      String.toList).length = tree.size - 1 := by
    rw [List.length_map, List.length_map, List.length_map, length_calls hformed]
  rw [callLines, splitOn_render hformed, hlines, List.map_append, List.drop_left' hbefore,
    List.map_append, List.take_left' hcalls, List.map_map, List.map_map]
  rfl

/-- No name breaks a line of a diagram or a part of one: the text has as many lines as it
should, without the characters that end a message or begin a comment, and every call is
read back from its line. -/
theorem render_unbroken {tree : CallTree} (hbuilt : tree.Built) (request : Option Request) :
    (∀ c ∈ (render tree request).toList, c ≠ '\r' ∧ c ≠ ';' ∧ c ≠ '#') ∧
    ((render tree request).toList.splitOn '\n').length =
      1 + (participants tree request).length + (tree.size - 1) +
        (if request.isSome then 3 else if tree.size = 1 then 1 else 0) ∧
    (callLines tree request).map readMessage =
      (tree.outline 0).calls.map fun call =>
        some (call.1.participant.toList, call.2.participant.toList,
          (label call.2.name).toList) := by
  have hformed := hbuilt.wellFormed
  refine ⟨?_, ?_, ?_⟩
  · intro c hc
    rw [render, lines_eq hformed] at hc
    rcases mem_intercalate hc with rfl | ⟨line, hline, hmem⟩
    · decide
    · have hplain := unbroken_line (tree.outline 0) request line hline c hmem
      simp only [breaking, List.mem_cons, List.not_mem_nil, or_false, not_or] at hplain
      exact hplain.2
  · rw [splitOn_render hformed, List.length_map, Outline.lines, List.length_append,
      List.length_map, length_statements hformed, List.length_cons, List.length_map,
      participants_eq hformed]
    omega
  · rw [callLines_eq hformed, List.map_map]
    apply List.map_congr_left
    intro call _
    exact readMessage_ofCall call

def forgery : Oracle Unit :=
  .fixed (fun _ _ => .immediate (.ok [⟨"a->>b: c", "x.y;\n", Ledger.place⟩]))
    fun identity =>
      if identity.name = "a->>b: c" then
        .immediate (.ok [⟨⟨"\r\nend: ->>#", "", Ledger.place⟩, []⟩])
      else
        .immediate (.ok [])

theorem render_unbroken_forgery :
    ∃ tree,
      (CallTree.build ⟨3, 9⟩ ⟨5000, none⟩ forgery Ledger.place () .start).result
        = .ok (some tree) ∧
      (callLines tree (some ⟨.get, "/;\n#", "f\r"⟩)).map readMessage =
        [some ("y.a___b__c".toList, "end_".toList, "end: ->>".toList)] := by
  have htree : ∃ tree,
      (CallTree.build ⟨3, 9⟩ ⟨5000, none⟩ forgery Ledger.place () .start).result
        = .ok (some tree) := ⟨_, by cbv⟩
  rcases htree with ⟨tree, htree⟩
  have houtline : tree.outline 0 =
      ⟨"x.y;\n", "a->>b: c", [⟨"", "\r\nend: ->>#", []⟩]⟩ :=
    Ledger.eq_of_result (f := fun tree => tree.outline 0) htree (by cbv)
  refine ⟨tree, htree, ?_⟩
  rw [(render_unbroken (.finished htree) (some ⟨.get, "/;\n#", "f\r"⟩)).2.2, houtline]
  decide +kernel

end Diagram

end EndpointTrace
