import EndpointTrace.Proofs.Resolution.Decision
import EndpointTrace.Proofs.Text.Words
import EndpointTrace.Proofs.Trace.Messages

/-!
# Requests that name a route

A request names a route if it consists of two words, the name of the method in any ASCII case
and a path that is the path of the route when it is normalized.  Such a request is settled at
once, provided that no other endpoint has the route: nobody is asked and nothing is said.  A
request is settled by a direct match in no other way.
-/

namespace EndpointTrace

namespace Method

theorem eq_of_name {a b : Method} {cs : List Char}
    (ha : Text.equalIgnoringAsciiCase a.name.toList cs = true)
    (hb : Text.equalIgnoringAsciiCase b.name.toList cs = true) : a = b := by
  have hnames : a.name.toList.map Text.asciiLower = b.name.toList.map Text.asciiLower :=
    (eq_of_beq ha).trans (eq_of_beq hb).symm
  revert hnames
  cases a <;> cases b <;> decide

theorem ofChars?_eq_some_iff {word : List Char} (hword : Text.IsWord word)
    {method : Method} :
    ofChars? word = some method ↔
      Text.equalIgnoringAsciiCase method.name.toList word = true := by
  rw [ofChars?, hword.trim_eq]
  constructor
  · exact List.find?_some
  · intro hname
    have hmem : method ∈ all := by
      cases method <;> decide
    cases hfound : all.find? fun other =>
        Text.equalIgnoringAsciiCase other.name.toList word with
    | none =>
        exact absurd hname (List.find?_eq_none.mp hfound method hmem)
    | some other =>
        have hother := List.find?_some hfound
        rw [eq_of_name hother hname]

end Method

namespace Endpoint

def SharesRoute (a b : Endpoint) : Prop :=
  b.method = a.method ∧ b.path = a.path

instance (a : Endpoint) : DecidablePred a.SharesRoute :=
  fun _ => inferInstanceAs (Decidable (_ ∧ _))

end Endpoint

namespace Resolution

/-- The request has two words, the method of the endpoint in any ASCII case and a text that
is the path of the endpoint when it is normalized. -/
def Spells (query : String) (endpoint : Endpoint) : Prop :=
  ∃ method path, Text.TwoWords query.toList method path ∧
    Text.equalIgnoringAsciiCase endpoint.method.name.toList method = true ∧
      RoutePath.normalize (String.ofList path) = endpoint.path

theorem names_trimmed_iff {query : String} {endpoint : Endpoint} :
    Names (Text.trimmed query).toList endpoint ↔ Spells query endpoint := by
  have hwords : ∀ method path, Text.words (Text.trimmed query).toList = [method, path] ↔
      Text.TwoWords query.toList method path := by
    intro method path
    rw [Text.trimmed, String.toList_ofList, Text.words_trim, Text.words_eq_pair_iff]
  have hpath : ∀ path, RoutePath.normalizeChars path = endpoint.path.toList ↔
      RoutePath.normalize (String.ofList path) = endpoint.path := by
    intro path
    rw [← String.toList_inj, RoutePath.toList_normalize, String.toList_ofList]
  simp only [Names, Spells, hwords, hpath]
  constructor
  · rintro ⟨method, path, htwo, hmethod, hnormal⟩
    exact ⟨method, path, htwo, (Method.ofChars?_eq_some_iff htwo.isWord_first).mp hmethod,
      hnormal⟩
  · rintro ⟨method, path, htwo, hmethod, hnormal⟩
    exact ⟨method, path, htwo, (Method.ofChars?_eq_some_iff htwo.isWord_first).mpr hmethod,
      hnormal⟩

theorem sole_names_iff {request : List Char} {candidates : List Endpoint}
    {endpoint : Endpoint} :
    Sole (Names request) candidates endpoint ↔
      Sole endpoint.SharesRoute candidates endpoint ∧ Names request endpoint := by
  have hsame : Names request endpoint → ∀ other,
      Names request other ↔ endpoint.SharesRoute other := by
    intro hnamed other
    rw [names_iff, names_iff.mp hnamed, Option.some.injEq, Prod.mk.injEq, String.toList_inj]
    exact and_congr eq_comm eq_comm
  constructor
  · rintro ⟨before, after, hsplit, hnamed, hothers⟩
    refine ⟨⟨before, after, hsplit, ⟨rfl, rfl⟩, ?_⟩, hnamed⟩
    intro other hother hshares
    exact hothers other hother ((hsame hnamed other).mpr hshares)
  · rintro ⟨⟨before, after, hsplit, _, hothers⟩, hnamed⟩
    refine ⟨before, after, hsplit, hnamed, ?_⟩
    intro other hother hnamedOther
    exact hothers other hother ((hsame hnamed other).mp hnamedOther)

section

variable (guard : Guard) (assistant : Option Assistant) (query : String)
  (endpoints : List Endpoint) (moment : Moment)

theorem cascades_run :
    Cascades guard assistant (Text.trimmed query) (opening endpoints moment)
      (run guard assistant query endpoints moment) :=
  cascades_follow guard assistant (Text.trimmed query) (opening endpoints moment)

variable {guard assistant query endpoints moment}

theorem run_of_named (hlive : moment.cancelled = false) (hseveral : 2 ≤ endpoints.length)
    {endpoint : Endpoint}
    (hnamed : Sole (Names (Text.trimmed query).toList) (Endpoint.sort endpoints) endpoint) :
    run guard assistant query endpoints moment =
      ⟨.selected endpoint .directMatch, opening endpoints moment⟩ := by
  have hlength : 2 ≤ (Endpoint.sort endpoints).length := by
    rw [(Endpoint.sort_perm endpoints).length_eq]
    exact hseveral
  have hcascades := cascades_run guard assistant query endpoints moment
  generalize run guard assistant query endpoints moment = run at hcascades ⊢
  cases hcascades with
  | cancelled hcancelled =>
      cases hlive.symm.trans hcancelled
  | nothing hcandidates =>
      exact absurd hcandidates (ne_short_of_two_le hlength).1
  | only hcandidates =>
      exact absurd hcandidates ((ne_short_of_two_le hlength).2 _)
  | direct _ hother =>
      rw [hnamed.unique hother]
  | keyword _ hunnamed _ =>
      exact absurd hnamed (hunnamed endpoint)
  | handedOn hundecided =>
      exact absurd hnamed (hundecided.2.1 endpoint)

/-- What a selection rests on, by the stage at which it is made. -/
theorem selected_cases {endpoint : Endpoint} {stage : Stage}
    (hselected : (run guard assistant query endpoints moment).resolution =
      .selected endpoint stage) :
    stage = .trivial ∨
      (stage = .directMatch ∧ 2 ≤ endpoints.length ∧
        Sole (Names (Text.trimmed query).toList) endpoints endpoint) ∨
      (stage = .keywordMatch ∧ Sole (Hit (Text.trimmed query).toList) endpoints endpoint) ∨
      stage ∈ [.assistant, .clarification] := by
  have hperm := Endpoint.sort_perm endpoints
  have hcascades := cascades_run guard assistant query endpoints moment
  generalize run guard assistant query endpoints moment = run at hcascades hselected
  cases hcascades with
  | cancelled _ =>
      cases hselected
  | nothing _ =>
      cases hselected
  | only _ =>
      cases hselected
      exact Or.inl rfl
  | direct hseveral hnamed =>
      cases hselected
      exact Or.inr (Or.inl ⟨rfl, hseveral.trans_eq hperm.length_eq, hnamed.of_perm hperm⟩)
  | keyword _ _ hhit =>
      cases hselected
      exact Or.inr (Or.inr (Or.inl ⟨rfl, hhit.of_perm hperm⟩))
  | handedOn _ =>
      exact Or.inr (Or.inr (Or.inr (stage_mem_of_selected hselected)))

theorem named_of_selected {endpoint : Endpoint}
    (hselected : (run guard assistant query endpoints moment).resolution =
      .selected endpoint .directMatch) :
    2 ≤ endpoints.length ∧ Sole (Names (Text.trimmed query).toList) endpoints endpoint := by
  rcases selected_cases hselected with htrivial | ⟨_, hnamed⟩ | ⟨hkeyword, _⟩ | hlater
  · cases htrivial
  · exact hnamed
  · cases hkeyword
  · exact absurd hlater (by decide)

theorem sole_hit_of_selected {endpoint : Endpoint}
    (hselected : (run guard assistant query endpoints moment).resolution =
      .selected endpoint .keywordMatch) :
    Sole (Hit (Text.trimmed query).toList) endpoints endpoint := by
  rcases selected_cases hselected with htrivial | ⟨hdirect, _⟩ | ⟨_, hhit⟩ | hlater
  · cases htrivial
  · cases hdirect
  · exact hhit
  · exact absurd hlater (by decide)

end

/-- A request that spells the route of an endpoint is settled by this endpoint, if no other
one has the route, and nothing is asked or said.  The path of the endpoint need not be in
normal form itself.  Conversely a request that is settled by a direct match spells the route of
an endpoint that no other one has. -/
theorem exact_route_resolves (guard : Guard) (assistant : Option Assistant) (query : String)
    (endpoints : List Endpoint) (moment : Moment) (endpoint : Endpoint) :
    (moment.cancelled = false → 2 ≤ endpoints.length →
      Sole endpoint.SharesRoute endpoints endpoint → Spells query endpoint →
      (run guard assistant query endpoints moment).resolution =
          .selected endpoint .directMatch ∧
        (run guard assistant query endpoints moment).progress.conversations = [] ∧
        (run guard assistant query endpoints moment).progress.transcript = []) ∧
    ((run guard assistant query endpoints moment).resolution =
        .selected endpoint .directMatch →
      2 ≤ endpoints.length ∧ Sole endpoint.SharesRoute endpoints endpoint ∧
        Spells query endpoint) := by
  constructor
  · intro hlive hseveral hsole hspells
    have hnamed := sole_names_iff.mpr
      ⟨hsole.of_perm (Endpoint.sort_perm endpoints).symm, names_trimmed_iff.mpr hspells⟩
    rw [run_of_named hlive hseveral hnamed]
    exact ⟨rfl, rfl, rfl⟩
  · intro hselected
    rcases named_of_selected hselected with ⟨hseveral, hnamed⟩
    rcases sole_names_iff.mp hnamed with ⟨hsole, hnames⟩
    exact ⟨hseveral, hsole, names_trimmed_iff.mp hnames⟩

theorem exact_route_resolves_shop :
    ∃ endpoint, shop[2]? = some endpoint ∧ Sole endpoint.SharesRoute shop endpoint ∧
      Spells " post\tusers/ " endpoint ∧
      (run ⟨1000, some 0⟩ (some steadfast) " post\tusers/ " shop .start).resolution =
        .selected endpoint .directMatch ∧
      (run ⟨1000, some 0⟩ (some steadfast) " post\tusers/ "
        shop .start).progress.conversations = [] := by
  have hsole : Sole shop[2].SharesRoute shop shop[2] :=
    filter_eq_singleton_iff.mp (by rfl)
  have hspells : Spells " post\tusers/ " shop[2] :=
    ⟨"post".toList, "users/".toList, ⟨[' '], ['\t'], [' '], by decide⟩, by decide, by decide⟩
  have hrun := (exact_route_resolves ⟨1000, some 0⟩ (some steadfast) " post\tusers/ " shop
    .start shop[2]).1 rfl (by decide) hsole hspells
  exact ⟨shop[2], rfl, hsole, hspells, hrun.1, hrun.2.1⟩

end Resolution
end EndpointTrace
