import EndpointTrace.Proofs.CallIndex.Groups
import EndpointTrace.Proofs.Java.Bodies

/-!
# The calls of an index, however it was filled

An index is filled with the trees of sources and with what other indexes hold, in any order
and any number of times.  It then answers for the identities of the callables of all these
sources and for no others: with the invocations in the body of the last callable that has the
identity, in groups, and it answers for every callee again.
-/

namespace EndpointTrace

open Java (Callable Declares Node Source preorderIn)

namespace CallIndex

/-- How an index was filled: with the trees of sources, and with what other indexes hold that
were filled as well. -/
inductive Filling where
  | nothing
  | adding (before : Filling) (source : Source)
  | taking (before other : Filling)

namespace Filling

def index : Filling → CallIndex
  | nothing => .empty
  | adding before source => before.index.addTree source.file source.tree
  | taking before other => before.index.absorb other.index

def sources : Filling → List Source
  | nothing => []
  | adding before source => before.sources ++ [source]
  | taking before other => before.sources ++ other.sources

def callables (filling : Filling) : List Callable :=
  filling.sources.flatMap Source.callables

theorem callables_index (filling : Filling) :
    filling.index.callables.toList = filling.callables := by
  induction filling with
  | nothing =>
      rfl
  | adding before source ih =>
      rw [index, callables_addTree, ih, callables, callables, sources, List.flatMap_append,
        List.flatMap_singleton]
      rfl
  | taking before other ihBefore ihOther =>
      rw [index, callables_absorb, ihBefore, ihOther, callables, callables, callables, sources,
        List.flatMap_append]

theorem consistent_index (filling : Filling) : filling.index.Consistent := by
  induction filling with
  | nothing =>
      exact consistent_empty
  | adding before source ih =>
      exact ih.addTree source.file source.tree
  | taking before other ih _ =>
      exact ih.absorb other.index

/-- The calls are those in the body of the callable that was the last of its identity, which
a source declares: the invocations of the body that land somewhere, in groups. -/
structure Explains (filling : Filling) (identity : Identity) (source : Source)
    (caller : Callable) (body : List Node) (calls : List OutgoingCall) : Prop where
  latest : (filling.callables.filter fun callable =>
    callable.identity.same identity).getLast? = some caller
  declares : Declares source.file (preorderIn source.tree) caller body
  grouped : Grouped filling.index caller.identity.context
    ((preorderIn body).filterMap Node.invocation?) calls
  perm : (calls.flatMap OutgoingCall.sites).Perm
    ((((preorderIn body).filterMap Node.invocation?).filter fun invocation =>
      (filling.index.resolve? caller.identity.context invocation).isSome).map
        Java.Invocation.range)

section

variable (filling : Filling)

theorem explains_callsOf {identity : Identity} {caller : Callable}
    (hlatest : (filling.callables.filter fun callable =>
      callable.identity.same identity).getLast? = some caller) :
    ∃ source ∈ filling.sources, ∃ body,
      filling.Explains identity source caller body (filling.index.callsOf caller) := by
  have hmem := (List.mem_filter.mp (List.mem_of_getLast? hlatest)).1
  rcases List.mem_flatMap.mp hmem with ⟨source, hsource, hcaller⟩
  rcases Java.exists_body_in source.file source.tree hcaller with ⟨body, hdeclares⟩
  have hinvocations : caller.invocations = (preorderIn body).filterMap Node.invocation? := by
    rcases hdeclares with ⟨_, range, name, owner, _, rfl⟩
    exact Java.invocationsIn_eq body
  refine ⟨source, hsource, body, hlatest, hdeclares, ?_, ?_⟩
  · rw [← hinvocations]
    exact filling.consistent_index.grouped_callsOf caller
  · rw [← hinvocations]
    exact perm_sites_callsOf filling.index caller

theorem outgoing_of_indexed {identity : Identity}
    (hindexed : ∃ callable ∈ filling.callables, callable.identity.same identity = true) :
    ∃ source ∈ filling.sources, ∃ caller body calls,
      filling.index.outgoing identity = .ok calls ∧
        filling.Explains identity source caller body calls := by
  rw [← filling.callables_index] at hindexed
  rcases filling.consistent_index.exists_caller hindexed with ⟨caller, hlatest, houtgoing⟩
  rw [filling.callables_index] at hlatest
  rcases filling.explains_callsOf hlatest with ⟨source, hsource, body, hexplains⟩
  exact ⟨source, hsource, caller, body, _, houtgoing, hexplains⟩

/-- However an index was filled, it answers for every identity that was indexed, with the
calls that the body of the last such callable explains, and so it does for every callee.  For
an identity that was never indexed the question fails. -/
theorem outgoing_explained (identity : Identity) :
    ((∃ callable ∈ filling.callables, callable.identity.same identity = true) →
      ∃ source ∈ filling.sources, ∃ caller body calls,
        filling.index.outgoing identity = .ok calls ∧
          filling.Explains identity source caller body calls ∧
            ∀ call ∈ calls, ∃ further, filling.index.outgoing call.callee = .ok further) ∧
    ((∀ callable ∈ filling.callables, callable.identity.same identity = false) →
      filling.index.outgoing identity = .error (.collaborator "outgoing_calls"
        ("unknown callable " ++ identity.name ++ " at " ++ identity.location.toText))) := by
  constructor
  · intro hindexed
    rcases filling.outgoing_of_indexed hindexed with
      ⟨source, hsource, caller, body, calls, houtgoing, hexplains⟩
    refine ⟨source, hsource, caller, body, calls, houtgoing, hexplains, ?_⟩
    intro call hcall
    rcases (hexplains.grouped.group call hcall).callee with ⟨callable, hcallable, hcallee⟩
    rw [filling.callables_index] at hcallable
    have hknown : ∃ callable ∈ filling.callables, callable.identity.same call.callee = true :=
      ⟨callable, hcallable, Identity.same_iff.mpr (by rw [hcallee])⟩
    rcases filling.outgoing_of_indexed hknown with ⟨_, _, _, _, further, hfurther, _⟩
    exact ⟨further, hfurther⟩
  · intro hunknown
    have hnone : filling.callables.filter
        (fun callable => callable.identity.same identity) = [] := by
      rw [List.filter_eq_nil_iff]
      intro callable hmem
      rw [hunknown callable hmem]
      exact Bool.false_ne_true
    rw [filling.consistent_index.outgoing_eq, filling.callables_index, hnone]
    rfl

end

def till : Source :=
  ⟨⟨"shop/Till.java"⟩,
    [.typeDecl .classType ⟨⟨0, 0⟩, ⟨5, 1⟩⟩ (some ⟨"Till", ⟨⟨0, 6⟩, ⟨0, 10⟩⟩⟩)
      [.callable .method ⟨⟨1, 2⟩, ⟨1, 60⟩⟩ (some ⟨"open", ⟨⟨1, 7⟩, ⟨1, 11⟩⟩⟩)
          [.invocation ⟨⟨1, 16⟩, ⟨1, 24⟩⟩ none "count" [],
            .invocation ⟨⟨1, 26⟩, ⟨1, 33⟩⟩ none "close" [],
            .invocation ⟨⟨1, 35⟩, ⟨1, 57⟩⟩ none "count"
              [.invocation ⟨⟨1, 44⟩, ⟨1, 56⟩⟩ (some "coins") "size" []]],
        .callable .method ⟨⟨2, 2⟩, ⟨2, 22⟩⟩ (some ⟨"count", ⟨⟨2, 7⟩, ⟨2, 12⟩⟩⟩) [],
        .callable .method ⟨⟨3, 2⟩, ⟨3, 29⟩⟩ (some ⟨"count", ⟨⟨3, 7⟩, ⟨3, 12⟩⟩⟩) [],
        .callable .method ⟨⟨4, 2⟩, ⟨4, 17⟩⟩ (some ⟨"close", ⟨⟨4, 7⟩, ⟨4, 12⟩⟩⟩) []]]⟩

/-- The till is added to an index that has it already, from an index of its own. -/
def twice : Filling :=
  .taking (.adding .nothing till) (.adding .nothing till)

def opening : Identity :=
  ⟨"open", "Till", ⟨⟨"shop//Till.java"⟩, ⟨1, 7⟩⟩⟩

def elsewhere : Identity :=
  ⟨"close", "Till", ⟨⟨"Till.java"⟩, ⟨4, 7⟩⟩⟩

theorem outgoing_explained_twice :
    (∃ callable ∈ twice.callables, callable.identity.same opening = true) ∧
    (∃ source ∈ twice.sources, ∃ caller body calls,
      twice.index.outgoing opening = .ok calls ∧
        twice.Explains opening source caller body calls ∧
          ∀ call ∈ calls, ∃ further, twice.index.outgoing call.callee = .ok further) ∧
    (∀ callable ∈ twice.callables, callable.identity.same elsewhere = false) ∧
    twice.index.outgoing elsewhere =
      .error (.collaborator "outgoing_calls" "unknown callable close at Till.java:5:8") := by
  have hindexed : ∃ callable ∈ twice.callables, callable.identity.same opening = true := by
    decide
  have hunknown : ∀ callable ∈ twice.callables, callable.identity.same elsewhere = false := by
    decide
  exact ⟨hindexed, (outgoing_explained twice opening).1 hindexed, hunknown,
    (outgoing_explained twice elsewhere).2 hunknown⟩

end Filling

end CallIndex
end EndpointTrace
