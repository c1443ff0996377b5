import EndpointTrace.Proofs.CallIndex.Groups
import EndpointTrace.Proofs.Route.HandlerTrees
import EndpointTrace.Proofs.CallTree.Soundness
import Mathlib.Data.List.MinMax

/-!
# Edges of a call tree and invocations of the sources

What an index answers is known to the index again: it names callables that were indexed,
and every group of calls has sites at which the caller invokes something of the name of the
callee.  So a tree that is built over an index holds indexed callables only, no question
about them fails, and every edge of it can be pointed out in the body of the caller.
-/

namespace EndpointTrace

open Java (Callable Invocation Source)

namespace CallIndex

/-!
## The callable at a position
-/

section

variable {index : CallIndex} {file : FilePath} {position : Position}

theorem mem_of_at? {callable : Callable} (hfound : index.at? file position = some callable) :
    callable ∈ index.callables.toList := by
  simp only [at?] at hfound
  rcases Option.or_eq_some_iff.mp hfound with hname | ⟨_, haround⟩
  · exact (List.mem_filter.mp (List.mem_of_find?_eq_some hname)).1
  · have hinFile := (List.mem_filter.mp (List.mem_of_find?_eq_some haround)).1
    exact (List.mem_filter.mp hinFile).1

theorem exists_innermost {callables : List Callable} (hsome : callables ≠ []) :
    ∃ callable ∈ callables, ∀ other ∈ callables,
      callable.fullRange.lineSpan ≤ other.fullRange.lineSpan := by
  let span (callable : Callable) : Nat := callable.fullRange.lineSpan
  cases hleast : callables.argmin span with
  | none =>
      exact absurd (List.argmin_eq_none.mp hleast) hsome
  | some callable =>
      refine ⟨callable, List.argmin_mem hleast, ?_⟩
      intro other hother
      exact List.le_of_mem_argmin (f := span) hother hleast

/-- Nothing is found exactly where no callable of the file has its name or its text. -/
theorem at?_eq_none_iff :
    index.at? file position = none ↔ ∀ callable ∈ index.callables.toList,
      callable.identity.location.file.same file = true →
        callable.selectionRange.contains position = false ∧
          callable.fullRange.contains position = false := by
  simp only [at?, Option.or_eq_none_iff]
  constructor
  · rintro ⟨hname, haround⟩ callable hmem hfile
    have hinFile : callable ∈ index.callables.toList.filter fun other =>
        other.identity.location.file.same file :=
      List.mem_filter.mpr ⟨hmem, hfile⟩
    refine ⟨Bool.eq_false_iff.mpr (List.find?_eq_none.mp hname callable hinFile), ?_⟩
    rw [Bool.eq_false_iff]
    intro hthere
    have hin := List.mem_filter (p := fun other => other.fullRange.contains position).mpr
      ⟨hinFile, hthere⟩
    rcases exists_innermost (List.ne_nil_of_mem hin) with ⟨innermost, hinnermost, hleast⟩
    apply List.find?_eq_none.mp haround innermost hinnermost
    rw [List.all_eq_true]
    intro other hother
    exact decide_eq_true (hleast other hother)
  · intro hnone
    constructor
    · rw [List.find?_eq_none]
      intro callable hinFile
      rcases List.mem_filter.mp hinFile with ⟨hmem, hfile⟩
      rw [(hnone callable hmem hfile).1]
      exact Bool.false_ne_true
    · rw [List.find?_eq_none]
      intro callable haround
      rcases List.mem_filter.mp haround with ⟨hinFile, hthere⟩
      rcases List.mem_filter.mp hinFile with ⟨hmem, hfile⟩
      rw [(hnone callable hmem hfile).2] at hthere
      cases hthere

end

/-!
## Calls
-/

/-- The sites of a call are invocations in the body of the caller, by the name of an indexed
callee. -/
structure Recorded (index : CallIndex) (invocations : List Invocation) (call : OutgoingCall) :
    Prop where
  callee : ∃ callable ∈ index.callables.toList, callable.identity = call.callee
  sites_ne_nil : call.sites ≠ []
  site : ∀ site ∈ call.sites, ∃ invocation ∈ invocations,
    invocation.range = site ∧ invocation.name = call.callee.name

section

variable {index : CallIndex}

theorem Consistent.recorded_of_mem_callsOf (hindex : index.Consistent) (caller : Callable) :
    ∀ call ∈ index.callsOf caller, index.Recorded caller.invocations call := by
  intro call hcall
  have hgroup := (hindex.grouped_callsOf caller).group call hcall
  refine ⟨hgroup.callee, ?_, ?_⟩
  · rcases hgroup.called with ⟨invocation, hmem, hlands⟩
    rw [hgroup.sites]
    exact List.ne_nil_of_mem (List.mem_map_of_mem (List.mem_filter.mpr ⟨hmem, hlands⟩))
  · intro site hsite
    rw [hgroup.sites] at hsite
    rcases List.mem_map.mp hsite with ⟨invocation, hfiltered, hrange⟩
    rcases List.mem_filter.mp hfiltered with ⟨hmem, hlands⟩
    rcases exists_of_landsIn hlands with ⟨callee, hfound, hsame⟩
    have hname : call.callee.name = callee.identity.name :=
      congrArg Prod.fst (Identity.same_iff.mp hsame)
    exact ⟨invocation, hmem, hrange,
      (hname.trans (hindex.resolve?_eq_some hfound).2).symm⟩

theorem Consistent.outgoing_of_mem (hindex : index.Consistent) {callable : Callable}
    (hmem : callable ∈ index.callables.toList) :
    ∃ caller ∈ index.callables.toList,
      caller.identity.same callable.identity = true ∧
        index.outgoing callable.identity = .ok (index.callsOf caller) := by
  rcases hindex.exists_caller ⟨callable, hmem, Identity.same_iff.mpr rfl⟩ with
    ⟨caller, hlast, houtgoing⟩
  rcases List.mem_filter.mp (List.mem_of_getLast? hlast) with ⟨hcaller, hsame⟩
  exact ⟨caller, hcaller, hsame, houtgoing⟩

end

/-!
## Questions of a run
-/

theorem answered_of_resolves {index : CallIndex} {guard : Guard} {location : Location}
    {moment : Moment} (limits : CallLimits) (hlive : moment.cancelled = false)
    {start : Expansion Unit} (hstart : Resolves guard index.oracle location () moment start) :
    ∀ inquiry ∈ (start.finish limits guard index.oracle).inquiries,
      inquiry.answer = index.outgoing inquiry.identity := by
  have hlaw : ∀ before : Expansion Unit,
      (before.Sound limits ∧ before.moment.cancelled = false ∧
        ∀ inquiry ∈ before.inquiries, inquiry.answer = index.outgoing inquiry.identity) →
      before.pending ≠ [] →
      ((before.round limits guard index.oracle).Sound limits ∧
        (before.round limits guard index.oracle).moment.cancelled = false ∧
        ∀ inquiry ∈ (before.round limits guard index.oracle).inquiries,
          inquiry.answer = index.outgoing inquiry.identity) := by
    rintro before ⟨hsound, hbefore, hanswers⟩ hpending
    refine ⟨hsound.round guard index.oracle hpending, ?_⟩
    rcases hsound.outcome guard index.oracle hpending with ⟨id, rest, node, _, _, houtcome⟩
    have hrun := guard.run_immediate "outgoing_calls" (index.outgoing node.identity) hbefore
    have hmoment : (before.ask guard index.oracle id node.identity).2.moment = before.moment :=
      congrArg Prod.snd hrun
    have hanswer : (before.ask guard index.oracle id node.identity).1 =
        index.outgoing node.identity :=
      congrArg Prod.fst hrun
    have hasked : ∀ inquiry ∈ (before.ask guard index.oracle id node.identity).2.inquiries,
        inquiry.answer = index.outgoing inquiry.identity := by
      intro inquiry hmem
      rw [Expansion.inquiries_ask, List.mem_append, List.mem_singleton] at hmem
      rcases hmem with hold | rfl
      · exact hanswers inquiry hold
      · exact hanswer
    generalize before.round limits guard index.oracle = after at houtcome ⊢
    cases houtcome with
    | cancelled hcancelled =>
        rw [hbefore] at hcancelled
        cases hcancelled
    | deep _ _ =>
        exact ⟨hbefore, hanswers⟩
    | answered _ _ _ =>
        exact ⟨by rw [Expansion.grow, hmoment]; exact hbefore, hasked⟩
    | interrupted _ _ _ _ =>
        exact ⟨by rw [Expansion.abandon, hmoment]; exact hbefore, hasked⟩
    | failed _ _ _ _ =>
        exact ⟨by rw [Expansion.dismiss, hmoment]; exact hbefore, hasked⟩
  have hfirst : start.moment.cancelled = false ∧ start.inquiries = [] := by
    rcases hstart with ⟨_, _, root, others, _, rfl⟩
    have hprepared := guard.run_immediate "prepare_call_hierarchy"
      (.ok (index.prepare location.file location.position)) hlive
    refine ⟨?_, rfl⟩
    show (guard.run _ _ moment).2.cancelled = false
    rw [show (index.oracle.prepare location.file location.position ()).1 =
      .immediate (.ok (index.prepare location.file location.position)) from rfl, hprepared]
    exact hlive
  refine (Expansion.finish_invariant _ hlaw ⟨hstart.sound, hfirst.1, ?_⟩).2.2
  rw [hfirst.2]
  intro inquiry hmem
  cases hmem

/-!
## Nodes and edges
-/

/-- The callables and the calls of a tree are those of the index. -/
structure Carries (index : CallIndex) (tree : CallTree) : Prop where
  unfailed : ∀ {id : Nat} {node : CallNode}, tree.node? id = some node →
    node.stopped ≠ some .oracleFailure
  indexed : ∀ {id : Nat} {node : CallNode}, tree.node? id = some node →
    ∃ callable ∈ index.callables.toList, callable.identity = node.identity
  called : ∀ {id parent : Nat} {node above : CallNode}, tree.node? id = some node →
    node.parent = some parent → tree.node? parent = some above →
      ∃ caller ∈ index.callables.toList, caller.identity.same above.identity = true ∧
        index.Recorded caller.invocations node.call

theorem Consistent.recorded_of_outgoing {index : CallIndex} (hindex : index.Consistent)
    {callable : Callable} (hmem : callable ∈ index.callables.toList)
    {calls : List OutgoingCall} (hcalls : index.outgoing callable.identity = .ok calls) :
    ∃ caller ∈ index.callables.toList,
      caller.identity.same callable.identity = true ∧
        ∀ call ∈ calls, index.Recorded caller.invocations call := by
  rcases hindex.outgoing_of_mem hmem with ⟨caller, hcaller, hsame, houtgoing⟩
  rw [hcalls] at houtgoing
  cases houtgoing
  exact ⟨caller, hcaller, hsame, hindex.recorded_of_mem_callsOf caller⟩

theorem carries_of_settled {index : CallIndex} (hindex : index.Consistent)
    {limits : CallLimits} {final : Expansion Unit} (hsound : final.Sound limits)
    (hdone : final.pending = [])
    (hanswers : ∀ inquiry ∈ final.inquiries,
      inquiry.answer = index.outgoing inquiry.identity)
    (hroot : ∀ {root : CallNode}, final.tree.node? 0 = some root →
      ∃ callable ∈ index.callables.toList, callable.identity = root.identity) :
    index.Carries final.tree := by
  have hsettled : ∀ {id : Nat} {node : CallNode}, final.tree.node? id = some node →
      final.tree.Settled limits final.inquiries id node := by
    intro id node hnode
    apply hsound.settled hnode
    rw [hdone]
    exact List.not_mem_nil
  have hanswer : ∀ {id : Nat} {inquiry : Inquiry},
      inquiriesAbout final.inquiries id = [inquiry] →
        inquiry.answer = index.outgoing inquiry.identity := by
    intro id inquiry hasked
    apply hanswers
    have hmem : inquiry ∈ inquiriesAbout final.inquiries id := by
      rw [hasked]
      exact List.mem_cons_self
    exact (List.mem_filter.mp hmem).1
  -- A child of a node that carries an indexed identity was reached by a recorded call.
  have hedge : ∀ {id parent : Nat} {node above : CallNode},
      final.tree.node? id = some node → node.parent = some parent →
      final.tree.node? parent = some above →
      (∃ callable ∈ index.callables.toList, callable.identity = above.identity) →
        ∃ caller ∈ index.callables.toList, caller.identity.same above.identity = true ∧
          index.Recorded caller.invocations node.call := by
    rintro id parent node above hnode hparent habove ⟨callable, hmem, hidentity⟩
    rcases hsound.shaped.formed.parent_lt hnode hparent with ⟨_, found, hfound, _, hchild⟩
    rw [habove] at hfound
    cases hfound
    cases hsettled habove with
    | answered hasked hasks hshallow hok hcallees hmark hfull =>
        rw [hanswer hasked, hasks, ← hidentity] at hok
        rcases hindex.recorded_of_outgoing hmem hok with ⟨caller, hcaller, hsame, hrecorded⟩
        rw [hidentity] at hsame
        refine ⟨caller, hcaller, hsame, hrecorded _ ?_⟩
        apply List.mem_append_left
        have hcall : some node.call ∈ final.tree.callees above :=
          List.mem_map.mpr ⟨id, hchild, by rw [hnode, Option.map_some]⟩
        rw [hcallees] at hcall
        rcases List.mem_map.mp hcall with ⟨call, htaken, heq⟩
        rw [← Option.some.inj heq]
        exact htaken
    | unanswered _ _ _ _ _ hleaf =>
        rw [hleaf] at hchild
        cases hchild
    | unasked _ _ _ hleaf =>
        rw [hleaf] at hchild
        cases hchild
  -- A node has a larger number than its parent, so the identities come down from the root.
  have hindexed : ∀ (id : Nat) {node : CallNode}, final.tree.node? id = some node →
      ∃ callable ∈ index.callables.toList, callable.identity = node.identity := by
    intro id
    induction id using Nat.strongRecOn with
    | ind id ih =>
        intro node hnode
        by_cases hid : id = 0
        · rw [hid] at hnode
          exact hroot hnode
        · rcases hsound.shaped.formed.below hnode hid with
            ⟨parent, above, hparent, hlt, habove, _, _⟩
          rcases hedge hnode hparent habove (ih parent hlt habove) with
            ⟨_, _, _, hrecorded⟩
          exact hrecorded.callee
  refine ⟨?_, fun hnode => hindexed _ hnode, ?_⟩
  · intro id node hnode hstopped
    cases hsettled hnode with
    | answered _ _ _ _ _ hmark _ =>
        rw [hmark] at hstopped
        split at hstopped <;> cases hstopped
    | unanswered hasked hasks _ herror hmark hleaf =>
        rcases hindexed id hnode with ⟨callable, hmem, hidentity⟩
        rcases hindex.outgoing_of_mem hmem with ⟨_, _, _, houtgoing⟩
        rw [hanswer hasked, hasks, ← hidentity, houtgoing] at herror
        cases herror
    | unasked _ hmark hreason _ =>
        rw [hmark] at hstopped
        cases hstopped
        rcases hreason with hother | hother | ⟨hother, _⟩ <;> cases hother
  · intro id parent node above hnode hparent habove
    exact hedge hnode hparent habove (hindexed parent habove)

end CallIndex

/-!
## What the sources justify
-/

namespace Java.Source

/-- A callable of the files has the position in its name or in its text. -/
def Covers (sources : List Source) (location : Location) : Prop :=
  ∃ callable ∈ sources.flatMap callables,
    callable.identity.location.file.same location.file = true ∧
      (callable.selectionRange.contains location.position = true ∨
        callable.fullRange.contains location.position = true)

theorem Distinct.identity_eq {sources : List Source} (hdistinct : Distinct sources)
    {a b : Callable} (ha : a ∈ sources.flatMap callables)
    (hb : b ∈ sources.flatMap callables) (hsame : a.identity.same b.identity = true) :
    a.identity = b.identity := by
  rcases List.mem_flatMap.mp ha with ⟨source, hsource, haIn⟩
  rcases List.mem_flatMap.mp hb with ⟨other, hother, hbIn⟩
  have haFile := file_of_mem haIn
  have hbFile := file_of_mem hbIn
  have hkey := Identity.same_iff.mp hsame
  simp only [Identity.key, Prod.mk.injEq] at hkey
  rcases hkey with ⟨hname, hcontext, hcomponents, hposition⟩
  rw [haFile, hbFile] at hcomponents
  have hone := hdistinct.eq_of_same hsource hother (FilePath.same_iff.mpr hcomponents)
  rw [hone, ← hbFile] at haFile
  generalize a.identity = first at *
  generalize b.identity = second at *
  rcases first with ⟨name, context, file, position⟩
  rcases second with ⟨_, _, _, _⟩
  cases hname
  cases hcontext
  cases haFile
  cases hposition
  rfl

end Java.Source

namespace CallTree

/-- The nodes are callables of the sources, and every edge can be pointed out in the body of
the caller. -/
structure JustifiedBy (callables : List Callable) (tree : CallTree) : Prop where
  unfailed : ∀ {id : Nat} {node : CallNode}, tree.node? id = some node →
    node.stopped ≠ some .oracleFailure
  indexed : ∀ {id : Nat} {node : CallNode}, tree.node? id = some node →
    ∃ callable ∈ callables, callable.identity = node.identity
  called : ∀ {id : Nat} {node : CallNode}, tree.node? id = some node → id ≠ 0 →
    node.sites ≠ [] ∧
      ∃ parent above, node.parent = some parent ∧ tree.node? parent = some above ∧
        ∃ caller ∈ callables, caller.identity = above.identity ∧
          ∀ site ∈ node.sites, ∃ invocation ∈ caller.invocations,
            invocation.range = site ∧ invocation.name = node.identity.name

theorem justifiedBy_of_carries {sources : List Source}
    (hdistinct : Source.Distinct sources) {index : CallIndex}
    (hcallables : index.callables.toList = sources.flatMap Source.callables)
    {tree : CallTree} (hformed : tree.WellFormed) (hcarries : index.Carries tree) :
    tree.JustifiedBy (sources.flatMap Source.callables) where
  unfailed := hcarries.unfailed
  indexed := by
    rw [← hcallables]
    exact hcarries.indexed
  called := by
    intro id node hnode hid
    rcases hformed.below hnode hid with ⟨parent, above, hparent, _, habove, _, _⟩
    rcases hcarries.called hnode hparent habove with ⟨caller, hcaller, hsame, hrecorded⟩
    rcases hcarries.indexed habove with ⟨callable, hcallable, hidentity⟩
    rw [hcallables] at hcaller hcallable
    rw [← hidentity] at hsame
    refine ⟨hrecorded.sites_ne_nil, parent, above, hparent, habove, caller, hcaller, ?_,
      hrecorded.site⟩
    rw [hdistinct.identity_eq hcaller hcallable hsame, hidentity]

theorem at?_eq_none_iff_not_covers {sources : List Source} {index : CallIndex}
    (hcallables : index.callables.toList = sources.flatMap Source.callables)
    (location : Location) :
    index.at? location.file location.position = none ↔ ¬ Source.Covers sources location := by
  rw [CallIndex.at?_eq_none_iff, hcallables]
  constructor
  · rintro hnone ⟨callable, hmem, hinFile, hthere⟩
    have hmissing := hnone callable hmem hinFile
    rw [hmissing.1, hmissing.2] at hthere
    rcases hthere with himpossible | himpossible <;> cases himpossible
  · intro huncovered callable hmem hinFile
    constructor
    · rw [Bool.eq_false_iff]
      intro hname
      exact huncovered ⟨callable, hmem, hinFile, Or.inl hname⟩
    · rw [Bool.eq_false_iff]
      intro htext
      exact huncovered ⟨callable, hmem, hinFile, Or.inr htext⟩

section

variable {index : CallIndex} {location : Location} (guard : Guard) {moment : Moment}

theorem prepared_of_live (index : CallIndex) (location : Location)
    (hlive : moment.cancelled = false) :
    (guard.run "prepare_call_hierarchy"
      (index.oracle.prepare location.file location.position ()).1 moment).1 =
        .ok ((index.at? location.file location.position).map Callable.identity).toList :=
  congrArg Prod.fst (guard.run_immediate _ _ hlive)

theorem build_of_at?_eq_none (hfile : location.file.isEmpty = false)
    (hlive : moment.cancelled = false)
    (hmissing : index.at? location.file location.position = none) (limits : CallLimits) :
    (build limits guard index.oracle location () moment).result = .ok none := by
  apply (build_of_not_resolves hfile _).1
  rintro start ⟨_, _, root, others, hprepared, _⟩
  rw [prepared_of_live guard index location hlive, hmissing] at hprepared
  cases hprepared

theorem build_of_at?_eq_some (hindex : index.Consistent) (hfile : location.file.isEmpty = false)
    (hlive : moment.cancelled = false) {callable : Callable}
    (hfound : index.at? location.file location.position = some callable)
    (limits : CallLimits) :
    ∃ tree, (build limits guard index.oracle location () moment).result = .ok (some tree) ∧
      tree.WellFormed ∧ index.Carries tree := by
  have hprepared := prepared_of_live guard index location hlive
  rw [hfound] at hprepared
  rcases exists_root_of_prepared limits hfile hlive hprepared with
    ⟨tree, root, hbuilt, hroot, hidentity⟩
  rcases resolves_of_build hbuilt with ⟨start, hstart⟩
  have hanswers := CallIndex.answered_of_resolves limits hlive hstart
  have hrun := Expansion.run_finish limits guard index.oracle start
  have hsound : Expansion.Sound limits _ := hrun.sound hstart.sound
  refine ⟨tree, hbuilt, ?_⟩
  rw [build_of_resolves hstart] at hbuilt
  cases hbuilt
  refine ⟨hsound.shaped.formed, ?_⟩
  apply CallIndex.carries_of_settled hindex hsound hrun.pending hanswers
  intro found hfoundRoot
  rw [hroot] at hfoundRoot
  cases hfoundRoot
  exact ⟨callable, CallIndex.mem_of_at? hfound, hidentity.symm⟩

end

/-- Over an index of files with different paths there is a tree exactly where a callable of
the file is, and the sources justify every node and every edge of it. -/
theorem build_justified {sources : List Source} (hdistinct : Source.Distinct sources)
    {index : CallIndex} (hindex : index = .ofSources sources ∨ index = .merged sources)
    {location : Location} (hfile : location.file.isEmpty = false) (limits : CallLimits)
    (guard : Guard) {moment : Moment} (hlive : moment.cancelled = false) :
    ((build limits guard index.oracle location () moment).result = .ok none ↔
      ¬ Source.Covers sources location) ∧
    (Source.Covers sources location →
      ∃ tree, (build limits guard index.oracle location () moment).result = .ok (some tree) ∧
        tree.JustifiedBy (sources.flatMap Source.callables)) := by
  have hcallables : index.callables.toList = sources.flatMap Source.callables := by
    rcases hindex with rfl | rfl
    · exact CallIndex.callables_ofSources sources
    · exact CallIndex.callables_merged sources
  have hconsistent : index.Consistent := by
    rcases hindex with rfl | rfl
    · exact CallIndex.consistent_ofSources sources
    · exact CallIndex.consistent_merged sources
  have hcovers := at?_eq_none_iff_not_covers hcallables location
  cases hfound : index.at? location.file location.position with
  | none =>
      have huncovered := hcovers.mp hfound
      exact ⟨iff_of_true (build_of_at?_eq_none guard hfile hlive hfound limits) huncovered,
        fun hcovered => absurd hcovered huncovered⟩
  | some callable =>
      rcases build_of_at?_eq_some guard hconsistent hfile hlive hfound limits with
        ⟨tree, hbuilt, hformed, hcarries⟩
      refine ⟨?_, fun _ =>
        ⟨tree, hbuilt, justifiedBy_of_carries hdistinct hcallables hformed hcarries⟩⟩
      rw [← hcovers, hfound, hbuilt]
      simp

/-- An order is priced in the shop and taken from a stock that asks itself. -/
def shopSources : List Source :=
  [⟨⟨"shop/Shop.java"⟩,
    [.typeDecl .classType ⟨⟨0, 0⟩, ⟨4, 1⟩⟩ (some ⟨"Shop", ⟨⟨0, 6⟩, ⟨0, 10⟩⟩⟩)
      [.field ⟨⟨1, 2⟩, ⟨1, 14⟩⟩ "Stock" [⟨"stock", ⟨⟨1, 8⟩, ⟨1, 13⟩⟩⟩] [],
        .callable .method ⟨⟨2, 2⟩, ⟨2, 48⟩⟩ (some ⟨"order", ⟨⟨2, 6⟩, ⟨2, 11⟩⟩⟩)
          [.invocation ⟨⟨2, 23⟩, ⟨2, 30⟩⟩ none "price" [],
            .invocation ⟨⟨2, 33⟩, ⟨2, 45⟩⟩ (some "stock") "take" []],
        .callable .method ⟨⟨3, 2⟩, ⟨3, 27⟩⟩ (some ⟨"price", ⟨⟨3, 6⟩, ⟨3, 11⟩⟩⟩) []]]⟩,
    ⟨⟨"shop/Stock.java"⟩,
      [.typeDecl .classType ⟨⟨0, 0⟩, ⟨2, 1⟩⟩ (some ⟨"Stock", ⟨⟨0, 6⟩, ⟨0, 11⟩⟩⟩)
        [.callable .method ⟨⟨1, 2⟩, ⟨1, 31⟩⟩ (some ⟨"take", ⟨⟨1, 6⟩, ⟨1, 10⟩⟩⟩)
          [.invocation ⟨⟨1, 22⟩, ⟨1, 28⟩⟩ none "take" []]]]⟩]

theorem build_justified_shop :
    Source.Distinct shopSources ∧
      Source.Covers shopSources ⟨⟨"shop//Shop.java"⟩, ⟨2, 40⟩⟩ ∧
      (∃ tree, (build ⟨6, 512⟩ ⟨1000, none⟩ (CallIndex.ofSources shopSources).oracle
          ⟨⟨"shop//Shop.java"⟩, ⟨2, 40⟩⟩ () .start).result = .ok (some tree) ∧
        tree.JustifiedBy (shopSources.flatMap Source.callables)) ∧
      (build ⟨6, 512⟩ ⟨1000, none⟩ (CallIndex.ofSources shopSources).oracle
        ⟨⟨"shop//Shop.java"⟩, ⟨0, 2⟩⟩ () .start).result = .ok none := by
  have hdistinct : Source.Distinct shopSources := by
    unfold Source.Distinct
    decide
  have hcovers : Source.Covers shopSources ⟨⟨"shop//Shop.java"⟩, ⟨2, 40⟩⟩ := by
    unfold Source.Covers
    decide
  have huncovered : ¬ Source.Covers shopSources ⟨⟨"shop//Shop.java"⟩, ⟨0, 2⟩⟩ := by
    unfold Source.Covers
    decide
  refine ⟨hdistinct, hcovers, ?_, ?_⟩
  · exact (build_justified hdistinct (Or.inl rfl) (by decide) ⟨6, 512⟩ ⟨1000, none⟩ rfl).2
      hcovers
  · exact (build_justified hdistinct (Or.inl rfl) (by decide) ⟨6, 512⟩ ⟨1000, none⟩ rfl).1.mpr
      huncovered

end CallTree

end EndpointTrace
