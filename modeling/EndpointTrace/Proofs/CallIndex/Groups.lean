import EndpointTrace.Proofs.CallIndex.Tables
import Mathlib.Data.List.Induction

/-!
# Groups of call sites

The invocations in a body are gone through in order.  One that lands in a callable adds its
site to the group of the callable, which it opens if it is the first to land there; one that
lands nowhere adds nothing.  So every invocation that lands has its site in one group, the
sites of a group have the order of the invocations, and the groups have the order in which
they were opened.
-/

namespace EndpointTrace

open Java (Callable Invocation)

namespace Identity

theorem same_eq_of_same {a b : Identity} (hsame : a.same b = true) (other : Identity) :
    a.same other = b.same other := by
  rw [same, same_iff.mp hsame]
  rfl

theorem same_comm (a b : Identity) : a.same b = b.same a :=
  Bool.beq_comm

end Identity

namespace CallIndex

/-!
## Landing
-/

section

variable {index : CallIndex} {owner : String} {invocation : Invocation} {callee : Callable}

theorem mem_named_of_resolve? (hfound : index.resolve? owner invocation = some callee) :
    callee ∈ index.named invocation.name := by
  unfold resolve? at hfound
  simp only at hfound
  split at hfound
  · rename_i found hexpected
    cases hfound
    rcases List.exists_of_findSome?_eq_some hexpected with ⟨expected, _, hchosen⟩
    rcases Option.or_eq_some_iff.mp hchosen with hexact | ⟨_, hderived⟩
    · exact List.mem_of_find?_eq_some hexact
    · exact List.mem_of_find?_eq_some hderived
  · rename_i hsole
    cases hfound
    rw [hsole]
    exact List.mem_cons_self
  · cases hfound

theorem Consistent.resolve?_eq_some (hindex : index.Consistent)
    (hfound : index.resolve? owner invocation = some callee) :
    callee ∈ index.callables.toList ∧ callee.identity.name = invocation.name := by
  have hnamed := mem_named_of_resolve? hfound
  rw [hindex.named_eq, List.mem_filter, beq_iff_eq] at hnamed
  exact hnamed

/-- An invocation in the body of a callable of the owner lands in a callable that has the
identity. -/
def landsIn (index : CallIndex) (owner : String) (identity : Identity)
    (invocation : Invocation) : Bool :=
  (index.resolve? owner invocation).any fun callee => identity.same callee.identity

theorem landsIn_of_resolve? (hfound : index.resolve? owner invocation = some callee)
    (identity : Identity) :
    index.landsIn owner identity invocation = identity.same callee.identity := by
  rw [landsIn, hfound, Option.any_some]

theorem landsIn_of_unresolved (hnone : index.resolve? owner invocation = none)
    (identity : Identity) : index.landsIn owner identity invocation = false := by
  rw [landsIn, hnone, Option.any_none]

theorem exists_of_landsIn {identity : Identity}
    (hlands : index.landsIn owner identity invocation = true) :
    ∃ callee, index.resolve? owner invocation = some callee ∧
      identity.same callee.identity = true :=
  (Option.any_eq_true _ _).mp hlands

end

/-!
## Adding a site
-/

section

variable {calls : List OutgoingCall} {callee : Identity}

theorem perm_addSite (calls : List OutgoingCall) (callee : Identity) (site : Range) :
    ((addSite calls callee site).flatMap OutgoingCall.sites).Perm
      (calls.flatMap OutgoingCall.sites ++ [site]) := by
  induction calls with
  | nil =>
      exact .refl _
  | cons call rest ih =>
      rw [addSite]
      split
      · rw [List.flatMap_cons, List.flatMap_cons, List.append_assoc, List.append_assoc]
        exact List.perm_append_comm.append_left _
      · rw [List.flatMap_cons, List.flatMap_cons, List.append_assoc]
        exact ih.append_left _

theorem addSite_of_new (site : Range)
    (hnew : ∀ call ∈ calls, call.callee.same callee = false) :
    addSite calls callee site = calls ++ [⟨callee, [site]⟩] := by
  induction calls with
  | nil =>
      rfl
  | cons call rest ih =>
      rw [addSite, hnew call List.mem_cons_self, if_neg Bool.false_ne_true,
        ih fun other hother => hnew other (List.mem_cons_of_mem _ hother), List.cons_append]

end

def withSite (index : CallIndex) (owner : String) (invocation : Invocation)
    (call : OutgoingCall) : OutgoingCall :=
  ⟨call.callee, call.sites ++
    if index.landsIn owner call.callee invocation then [invocation.range] else []⟩

section

variable {index : CallIndex} {owner : String} {invocation : Invocation}

theorem withSite_of_other {call : OutgoingCall}
    (hother : index.landsIn owner call.callee invocation = false) :
    index.withSite owner invocation call = call := by
  rw [withSite, hother, if_neg Bool.false_ne_true, List.append_nil]

theorem map_withSite_of_others {calls : List OutgoingCall}
    (hothers : ∀ call ∈ calls, index.landsIn owner call.callee invocation = false) :
    calls.map (index.withSite owner invocation) = calls := by
  rw [List.map_congr_left fun call hcall => withSite_of_other (hothers call hcall)]
  exact List.map_id' calls

theorem addSite_of_known {callee : Callable} {calls : List OutgoingCall}
    (hfound : index.resolve? owner invocation = some callee)
    (hdifferent : calls.Pairwise fun a b => a.callee.same b.callee = false)
    (hknown : ∃ call ∈ calls, call.callee.same callee.identity = true) :
    addSite calls callee.identity invocation.range =
      calls.map (index.withSite owner invocation) := by
  induction calls with
  | nil =>
      rcases hknown with ⟨_, hmem, _⟩
      cases hmem
  | cons call rest ih =>
      rcases List.pairwise_cons.mp hdifferent with ⟨hcall, hrest⟩
      rw [addSite, List.map_cons]
      cases hsame : call.callee.same callee.identity with
      | true =>
          -- No other group is of the callee, so the others stay as they are.
          have hothers : ∀ other ∈ rest,
              index.landsIn owner other.callee invocation = false := by
            intro other hother
            rw [landsIn_of_resolve? hfound, Identity.same_comm,
              ← Identity.same_eq_of_same hsame]
            exact hcall other hother
          rw [if_pos rfl, map_withSite_of_others hothers, withSite,
            landsIn_of_resolve? hfound, hsame, if_pos rfl]
      | false =>
          rw [if_neg Bool.false_ne_true, withSite_of_other, ih hrest]
          · rcases hknown with ⟨other, hmem, hother⟩
            rcases List.mem_cons.mp hmem with rfl | hlater
            · rw [hsame] at hother
              cases hother
            · exact ⟨other, hlater, hother⟩
          · rw [landsIn_of_resolve? hfound, hsame]

end

/-!
## Grouping
-/

def addInvocation (index : CallIndex) (owner : String) (calls : List OutgoingCall)
    (invocation : Invocation) : List OutgoingCall :=
  match index.resolve? owner invocation with
  | some callee => addSite calls callee.identity invocation.range
  | none => calls

theorem callsOf_eq (index : CallIndex) (caller : Callable) :
    index.callsOf caller =
      caller.invocations.foldl (index.addInvocation caller.identity.context) [] :=
  rfl

/-- The sites of a group are those of the invocations that land in its callee, which is an
indexed callable, in the order of the invocations. -/
structure Group (index : CallIndex) (owner : String) (invocations : List Invocation)
    (call : OutgoingCall) : Prop where
  callee : ∃ callable ∈ index.callables.toList, callable.identity = call.callee
  called : ∃ invocation ∈ invocations, index.landsIn owner call.callee invocation = true
  sites : call.sites =
    (invocations.filter (index.landsIn owner call.callee)).map Invocation.range

/-- The groups of some invocations in the body of a callable of the owner.  They are of
different callees, whatever is called has its group, and a group stands before another if its
first invocation does. -/
structure Grouped (index : CallIndex) (owner : String) (invocations : List Invocation)
    (calls : List OutgoingCall) : Prop where
  group : ∀ call ∈ calls, Group index owner invocations call
  different : calls.Pairwise fun a b => a.callee.same b.callee = false
  complete : ∀ invocation ∈ invocations, ∀ callee,
    index.resolve? owner invocation = some callee →
      ∃ call ∈ calls, call.callee.same callee.identity = true
  ordered : calls.Pairwise fun a b =>
    invocations.findIdx (index.landsIn owner a.callee) <
      invocations.findIdx (index.landsIn owner b.callee)

section

variable {index : CallIndex} {owner : String} {seen : List Invocation}

namespace Group

variable {call : OutgoingCall} (hgroup : Group index owner seen call)

include hgroup

theorem withSite (invocation : Invocation) :
    Group index owner (seen ++ [invocation]) (index.withSite owner invocation call) where
  callee := hgroup.callee
  called := by
    rcases hgroup.called with ⟨first, hfirst, hlands⟩
    exact ⟨first, List.mem_append_left _ hfirst, hlands⟩
  sites := by
    show call.sites ++ _ =
      ((seen ++ [invocation]).filter (index.landsIn owner call.callee)).map Invocation.range
    rw [List.filter_append, List.filter_singleton, List.map_append, ← hgroup.sites]
    cases index.landsIn owner call.callee invocation with
    | true =>
        rfl
    | false =>
        rfl

theorem findIdx_append (later : List Invocation) :
    (seen ++ later).findIdx (index.landsIn owner call.callee) =
      seen.findIdx (index.landsIn owner call.callee) := by
  rw [List.findIdx_append, if_pos (List.findIdx_lt_length.mpr hgroup.called)]

end Group

section

variable {callee : Callable} {invocation : Invocation}
  (hfound : index.resolve? owner invocation = some callee)
  (hfirst : ∀ before ∈ seen, index.landsIn owner callee.identity before = false)

include hfound

theorem landsIn_self : index.landsIn owner callee.identity invocation = true := by
  rw [landsIn_of_resolve? hfound]
  exact Identity.same_iff.mpr rfl

include hfirst

theorem Group.first (hcallee : callee ∈ index.callables.toList) :
    Group index owner (seen ++ [invocation]) ⟨callee.identity, [invocation.range]⟩ where
  callee := ⟨callee, hcallee, rfl⟩
  called := ⟨invocation, List.mem_concat_self, landsIn_self hfound⟩
  sites := by
    have hnone : seen.filter (index.landsIn owner callee.identity) = [] := by
      rw [List.filter_eq_nil_iff]
      intro before hbefore
      rw [hfirst before hbefore]
      exact Bool.false_ne_true
    rw [List.filter_append, List.filter_singleton, landsIn_self hfound, hnone]
    rfl

theorem findIdx_first :
    (seen ++ [invocation]).findIdx (index.landsIn owner callee.identity) = seen.length := by
  rw [List.findIdx_append, if_neg]
  · rw [List.findIdx_singleton, landsIn_self hfound, if_pos rfl, Nat.zero_add]
  · rw [List.findIdx_lt_length]
    rintro ⟨before, hmem, hlands⟩
    rw [hfirst before hmem] at hlands
    cases hlands

end

namespace Grouped

variable {calls : List OutgoingCall} {invocation : Invocation}

theorem nil (index : CallIndex) (owner : String) : Grouped index owner [] [] where
  group := by simp
  different := .nil
  complete := by simp
  ordered := .nil

variable (hgrouped : Grouped index owner seen calls)

include hgrouped

theorem ordered_append (later : List Invocation) :
    calls.Pairwise fun a b =>
      (seen ++ later).findIdx (index.landsIn owner a.callee) <
        (seen ++ later).findIdx (index.landsIn owner b.callee) := by
  apply hgrouped.ordered.imp_of_mem
  intro a b ha hb hlt
  rw [(hgrouped.group a ha).findIdx_append, (hgrouped.group b hb).findIdx_append]
  exact hlt

theorem withSite (hknown : ∀ callee, index.resolve? owner invocation = some callee →
      ∃ call ∈ calls, call.callee.same callee.identity = true) :
    Grouped index owner (seen ++ [invocation])
      (calls.map (index.withSite owner invocation)) where
  group := by
    intro call hcall
    rcases List.mem_map.mp hcall with ⟨before, hbefore, rfl⟩
    exact (hgrouped.group before hbefore).withSite invocation
  different := List.pairwise_map.mpr hgrouped.different
  complete := by
    intro other hother callee hfound
    have hbefore : ∃ call ∈ calls, call.callee.same callee.identity = true := by
      rcases List.mem_append.mp hother with hseen | hlast
      · exact hgrouped.complete other hseen callee hfound
      · rw [List.mem_singleton.mp hlast] at hfound
        exact hknown callee hfound
    rcases hbefore with ⟨call, hcall, hsame⟩
    exact ⟨_, List.mem_map_of_mem hcall, hsame⟩
  ordered := List.pairwise_map.mpr (hgrouped.ordered_append [invocation])

theorem not_landsIn_of_new {identity : Identity}
    (hnew : ∀ call ∈ calls, call.callee.same identity = false) :
    ∀ before ∈ seen, index.landsIn owner identity before = false := by
  intro before hbefore
  rw [Bool.eq_false_iff]
  intro hlands
  rcases exists_of_landsIn hlands with ⟨target, htarget, hsame⟩
  rcases hgrouped.complete before hbefore target htarget with ⟨call, hcall, hcallSame⟩
  have hother := hnew call hcall
  rw [Identity.same_comm, Identity.same_eq_of_same hsame, Identity.same_comm,
    hcallSame] at hother
  cases hother

theorem opened {callee : Callable} (hcallee : callee ∈ index.callables.toList)
    (hfound : index.resolve? owner invocation = some callee)
    (hnew : ∀ call ∈ calls, call.callee.same callee.identity = false) :
    Grouped index owner (seen ++ [invocation])
      (calls ++ [⟨callee.identity, [invocation.range]⟩]) where
  group := by
    intro call hcall
    rcases List.mem_append.mp hcall with hold | hopened
    · have hgroup := (hgrouped.group call hold).withSite invocation
      rwa [withSite_of_other] at hgroup
      rw [landsIn_of_resolve? hfound, hnew call hold]
    · rw [List.mem_singleton.mp hopened]
      exact .first hfound (hgrouped.not_landsIn_of_new hnew) hcallee
  different := by
    rw [List.pairwise_append]
    refine ⟨hgrouped.different, List.pairwise_singleton _ _, ?_⟩
    intro call hcall opened hopened
    rw [List.mem_singleton.mp hopened]
    exact hnew call hcall
  complete := by
    intro other hother target htarget
    rcases List.mem_append.mp hother with hseen | hlater
    · rcases hgrouped.complete other hseen target htarget with ⟨call, hcall, hsame⟩
      exact ⟨call, List.mem_append_left _ hcall, hsame⟩
    · rw [List.mem_singleton.mp hlater, hfound] at htarget
      cases htarget
      exact ⟨_, List.mem_concat_self, Identity.same_iff.mpr rfl⟩
  ordered := by
    rw [List.pairwise_append]
    refine ⟨hgrouped.ordered_append _, List.pairwise_singleton _ _, ?_⟩
    intro call hcall opened hopened
    have hgroup := hgrouped.group call hcall
    rw [List.mem_singleton.mp hopened, hgroup.findIdx_append,
      findIdx_first hfound (hgrouped.not_landsIn_of_new hnew)]
    exact List.findIdx_lt_length.mpr hgroup.called

/-- What one invocation does to the groups of those before it. -/
theorem addInvocation (hindex : index.Consistent) (invocation : Invocation) :
    Grouped index owner (seen ++ [invocation])
      (index.addInvocation owner calls invocation) := by
  unfold CallIndex.addInvocation
  cases hfound : index.resolve? owner invocation with
  | none =>
      have hkept : calls.map (index.withSite owner invocation) = calls :=
        map_withSite_of_others fun call _ => landsIn_of_unresolved hfound call.callee
      rw [← hkept]
      apply hgrouped.withSite
      intro callee hcallee
      rw [hfound] at hcallee
      cases hcallee
  | some callee =>
      dsimp only
      by_cases hknown : ∃ call ∈ calls, call.callee.same callee.identity = true
      · rw [addSite_of_known hfound hgrouped.different hknown]
        apply hgrouped.withSite
        intro target htarget
        rw [hfound] at htarget
        cases htarget
        exact hknown
      · have hnew : ∀ call ∈ calls, call.callee.same callee.identity = false := by
          intro call hcall
          rw [Bool.eq_false_iff]
          exact fun hsame => hknown ⟨call, hcall, hsame⟩
        rw [addSite_of_new _ hnew]
        exact hgrouped.opened (hindex.resolve?_eq_some hfound).1 hfound hnew

end Grouped

theorem perm_sites_addInvocation {calls : List OutgoingCall}
    (hsites : (calls.flatMap OutgoingCall.sites).Perm
      ((seen.filter fun before => (index.resolve? owner before).isSome).map Invocation.range))
    (invocation : Invocation) :
    ((index.addInvocation owner calls invocation).flatMap OutgoingCall.sites).Perm
      (((seen ++ [invocation]).filter fun before =>
        (index.resolve? owner before).isSome).map Invocation.range) := by
  rw [addInvocation, List.filter_append, List.filter_singleton, List.map_append]
  cases index.resolve? owner invocation with
  | none =>
      rw [Option.isSome_none, cond_false, List.map_nil, List.append_nil]
      exact hsites
  | some callee =>
      rw [Option.isSome_some, cond_true]
      exact (perm_addSite _ _ _).trans (hsites.append_right _)

end

/-!
## Calls
-/

section

variable {index : CallIndex} (hindex : index.Consistent)

include hindex

theorem Consistent.grouped_callsOf (caller : Callable) :
    Grouped index caller.identity.context caller.invocations (index.callsOf caller) := by
  rw [callsOf_eq]
  induction caller.invocations using List.reverseRecOn with
  | nil =>
      exact .nil _ _
  | append_singleton seen invocation ih =>
      rw [List.foldl_concat]
      exact ih.addInvocation hindex invocation

theorem Consistent.exists_caller {identity : Identity}
    (hindexed : ∃ callable ∈ index.callables.toList,
      callable.identity.same identity = true) :
    ∃ caller,
      (index.callables.toList.filter fun callable =>
        callable.identity.same identity).getLast? = some caller ∧
      index.outgoing identity = .ok (index.callsOf caller) := by
  rcases hindexed with ⟨callable, hmem, hsame⟩
  rw [hindex.outgoing_eq]
  cases hlast : (index.callables.toList.filter fun callable =>
      callable.identity.same identity).getLast? with
  | none =>
      have hself : callable ∈ index.callables.toList.filter fun callable =>
          callable.identity.same identity :=
        List.mem_filter.mpr ⟨hmem, hsame⟩
      rw [List.getLast?_eq_none_iff.mp hlast] at hself
      cases hself
  | some caller =>
      exact ⟨caller, rfl, rfl⟩

end

theorem perm_sites_callsOf (index : CallIndex) (caller : Callable) :
    ((index.callsOf caller).flatMap OutgoingCall.sites).Perm
      ((caller.invocations.filter fun invocation =>
        (index.resolve? caller.identity.context invocation).isSome).map Invocation.range) := by
  rw [callsOf_eq]
  induction caller.invocations using List.reverseRecOn with
  | nil =>
      exact .refl _
  | append_singleton seen invocation ih =>
      rw [List.foldl_concat]
      exact perm_sites_addInvocation ih invocation

end CallIndex
end EndpointTrace
