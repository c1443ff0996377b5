import EndpointTrace.Proofs.Resolution.ExactRoute
import EndpointTrace.Proofs.Text.LowerCase

/-!
# Keywords as they are written

Keywords are compared in lower case.  A request that is part of a path or of a handler as it
is written, or the other way around, is therefore a hit, unless lower case changes it: a
capital sigma at the end of the part is written in one way on its own and in another way where
the word goes on.  Apart from this an endpoint that the request shares a text with is never
lost: it is selected or left for the assistant and the person, and no other one is selected
for its keywords.
-/

namespace EndpointTrace
namespace Resolution

/-- As they are written, the request is part of the path or of the handler, or the handler or
a path other than the root is part of the request, and lower case leaves the part as it is. -/
def SharesText (request : List Char) (endpoint : Endpoint) : Prop :=
  Text.Holds endpoint.path.toList request ∨ Text.Holds endpoint.handler.toList request ∨
    endpoint.path ≠ "/" ∧ Text.Holds request endpoint.path.toList ∨
      Text.Holds request endpoint.handler.toList

theorem hit_of_sharesText {request : List Char} {endpoint : Endpoint} (hrequest : request ≠ [])
    (hshares : SharesText request endpoint) : Hit request endpoint := by
  refine ⟨hrequest, ?_⟩
  rcases hshares with hpath | hhandler | ⟨hroot, hpath⟩ | hhandler
  · exact Or.inl hpath.lower_part
  · exact Or.inr (Or.inl hhandler.lower_part)
  · refine Or.inr (Or.inr (Or.inl ⟨?_, hpath.lower_part⟩))
    intro hslash
    exact hroot (String.toList_inj.mp (Text.lower_eq_slash hslash))
  · exact Or.inr (Or.inr (Or.inr hhandler.lower_part))

theorem mem_shortlist {request : String} {candidates : List Endpoint} {endpoint : Endpoint}
    (hmem : endpoint ∈ candidates) (hhit : Hit request.toList endpoint) :
    endpoint ∈ shortlist request candidates := by
  rw [shortlist, narrow_eq]
  split
  · exact List.mem_filter.mpr ⟨hmem, decide_eq_true hhit⟩
  · exact hmem

theorem Sole.eq_of_mem {property : Endpoint → Prop} {candidates : List Endpoint}
    {endpoint other : Endpoint} (hsole : Sole property candidates endpoint)
    (hmem : other ∈ candidates) (hother : property other) : other = endpoint := by
  classical
  have hfiltered : other ∈ candidates.filter fun candidate => decide (property candidate) :=
    List.mem_filter.mpr ⟨hmem, decide_eq_true hother⟩
  rw [filter_eq_singleton_iff.mpr hsole] at hfiltered
  exact List.mem_singleton.mp hfiltered

section

variable {guard : Guard} {assistant : Option Assistant} {query : String}
  {endpoints : List Endpoint} {moment : Moment}

theorem selected_or_handedOn (hlive : moment.cancelled = false)
    (hseveral : 2 ≤ endpoints.length)
    (hunnamed : ∀ other, ¬ Sole (Names (Text.trimmed query).toList) endpoints other)
    {endpoint : Endpoint} (hmem : endpoint ∈ endpoints)
    (hhit : Hit (Text.trimmed query).toList endpoint) :
    (run guard assistant query endpoints moment).resolution =
        .selected endpoint .keywordMatch ∨
      ∃ candidates, endpoint ∈ candidates ∧
        run guard assistant query endpoints moment =
          follow guard assistant (Text.trimmed query) [.assistant, .clarification]
            ⟨candidates, moment, [], []⟩ := by
  have hperm := Endpoint.sort_perm endpoints
  have hshort := ne_short_of_two_le (hseveral.trans_eq hperm.length_eq.symm)
  have hsorted := hperm.mem_iff.mpr hmem
  have hcascades := cascades_run guard assistant query endpoints moment
  generalize run guard assistant query endpoints moment = run at hcascades ⊢
  cases hcascades with
  | cancelled hcancelled =>
      cases hlive.symm.trans hcancelled
  | nothing hcandidates =>
      exact absurd hcandidates hshort.1
  | only hcandidates =>
      exact absurd hcandidates (hshort.2 _)
  | direct _ hnamed =>
      exact absurd (hnamed.of_perm hperm) (hunnamed _)
  | keyword _ _ hsole =>
      left
      rw [hsole.eq_of_mem hsorted hhit]
  | handedOn _ =>
      exact Or.inr ⟨_, mem_shortlist hsorted hhit, rfl⟩

end

/-- No endpoint is lost that the request shares a text with, as both are written, unless lower
case changes the text: it is a hit, it is selected or left for the assistant and the person,
and no other one is selected for its keywords. -/
theorem shared_text_kept (guard : Guard) (assistant : Option Assistant) (query : String)
    {endpoints : List Endpoint} (moment : Moment) (hseveral : 2 ≤ endpoints.length)
    {endpoint : Endpoint} (hmem : endpoint ∈ endpoints) (hquery : Text.trimmed query ≠ "")
    (hunnamed : ∀ other, ¬ Sole (Names (Text.trimmed query).toList) endpoints other)
    (hshares : SharesText (Text.trimmed query).toList endpoint) :
    Hit (Text.trimmed query).toList endpoint ∧
      (moment.cancelled = false →
        (run guard assistant query endpoints moment).resolution =
            .selected endpoint .keywordMatch ∨
          ∃ candidates, endpoint ∈ candidates ∧
            run guard assistant query endpoints moment =
              follow guard assistant (Text.trimmed query) [.assistant, .clarification]
                ⟨candidates, moment, [], []⟩) ∧
      ∀ other, (run guard assistant query endpoints moment).resolution =
        .selected other .keywordMatch → other = endpoint := by
  have hrequest : (Text.trimmed query).toList ≠ [] := by
    intro hnil
    exact hquery (String.toList_eq_nil_iff.mp hnil)
  have hhit := hit_of_sharesText hrequest hshares
  refine ⟨hhit, fun hlive => selected_or_handedOn hlive hseveral hunnamed hmem hhit, ?_⟩
  intro other hselected
  exact ((sole_hit_of_selected hselected).eq_of_mem hmem hhit).symm

def stems : List Endpoint :=
  [⟨.get, "/a", "ΑΣ", ⟨⟨"Stems.java"⟩, ⟨3, 4⟩⟩, 2, 4⟩,
    ⟨.get, "/b", "getΑΣΑ", ⟨⟨"Stems.java"⟩, ⟨6, 4⟩⟩, 5, 7⟩]

theorem sort_stems : Endpoint.sort stems = stems := by
  apply List.mergeSort_of_pairwise
  decide +kernel

theorem unnamed_of_word {request : List Char} (hword : Text.words request = [request])
    (candidates : List Endpoint) (other : Endpoint) :
    ¬ Sole (Names request) candidates other := by
  rintro ⟨_, _, _, ⟨method, path, hwords, _⟩, _⟩
  rw [hword] at hwords
  cases hwords

theorem shared_text_kept_stems :
    stems[1] ∈ stems ∧ SharesText "ΑΣΑ".toList stems[1] ∧ Hit "ΑΣΑ".toList stems[1] ∧
      (∀ other, (run ⟨1000, none⟩ (some steadfast) " ΑΣΑ " stems .start).resolution =
        .selected other .keywordMatch → other = stems[1]) ∧
      SharesText "getΑ".toList stems[1] ∧ Hit "getΑ".toList stems[1] := by
  have hlonger : Text.trimmed " ΑΣΑ " = "ΑΣΑ" := rfl
  have hshorter : Text.trimmed "getΑ" = "getΑ" := rfl
  have hmem : stems[1] ∈ stems := List.getElem_mem _
  have hmiddle : SharesText "ΑΣΑ".toList stems[1] :=
    Or.inr (Or.inl ⟨"get".toList, [], rfl, by decide +kernel⟩)
  have hbefore : SharesText "getΑ".toList stems[1] :=
    Or.inr (Or.inl (Text.holds_of_part ⟨[], "ΣΑ".toList, rfl⟩ (by decide)))
  have hkept := shared_text_kept ⟨1000, none⟩ (some steadfast) " ΑΣΑ " .start (by decide) hmem
    (by rw [hlonger]; decide) (unnamed_of_word rfl stems) hmiddle
  have hfound := shared_text_kept ⟨1000, none⟩ none "getΑ" .start (by decide) hmem
    (by rw [hshorter]; decide) (unnamed_of_word rfl stems) hbefore
  exact ⟨hmem, hmiddle, hkept.1, hkept.2.2, hbefore, hfound.1⟩

/-- The shorter request is part of the longer name as well, but its sigma ends a word only on
its own.  So the second endpoint is no hit, and the first one is selected in its place. -/
theorem not_kept_stems :
    "ΑΣ".toList <:+: stems[1].handler.toList ∧
      (∀ other, ¬ Sole (Names "ΑΣ".toList) stems other) ∧ ¬ Hit "ΑΣ".toList stems[1] ∧
      (run ⟨1000, none⟩ none "ΑΣ" stems .start).resolution =
        .selected stems[0] .keywordMatch := by
  have htrimmed : Text.trimmed "ΑΣ" = "ΑΣ" := rfl
  have hunnamed : ∀ other, ¬ Sole (Names "ΑΣ".toList) stems other :=
    unnamed_of_word rfl stems
  have hmissed : ¬ Hit "ΑΣ".toList stems[1] := by
    decide +kernel
  have hsole : Sole (Hit "ΑΣ".toList) stems stems[0] := by
    refine ⟨[], [stems[1]], rfl, by decide +kernel, ?_⟩
    intro other hother
    rw [List.mem_singleton.mp hother]
    exact hmissed
  have hend : (run ⟨1000, none⟩ none "ΑΣ" stems .start).progress.moment.cancelled = false :=
    live_follow rfl (fun _ _ hasked => by cases hasked) _ _ rfl
  have hdecided := (settles_run hend).decided
  rw [htrimmed, sort_stems] at hdecided
  exact ⟨⟨"get".toList, "Α".toList, rfl⟩, hunnamed, hmissed,
    (hdecided.keyword stems[0]).mpr ⟨by decide, hunnamed, hsole⟩⟩

end Resolution
end EndpointTrace
