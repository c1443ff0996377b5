import EndpointTrace.Proofs.Resolution.Stages
import EndpointTrace.Proofs.Route.Presentation

/-!
# Nothing is guessed

Which endpoint is selected, and at which stage, follows from the request, the candidates and
the reply of the assistant, and in each case there is only one endpoint that it can be.  In
all other cases the person is asked.
-/

namespace EndpointTrace
namespace Resolution

/-!
## The assistant's part
-/

section

variable (assistant : Option Assistant) (timeout : Nat) (request : String)
  (candidates : List Endpoint)

/-- The complete reply of the assistant stands for a number, and the endpoint is the one that
is printed with this number. -/
def Chooses (endpoint : Endpoint) : Prop :=
  ∃ asked reply number, assistant = some asked ∧
    answer timeout asked request candidates = .ok reply ∧ StandsFor reply.toList number ∧
    1 ≤ number ∧ number ≤ candidates.length ∧ (endpoint, number) ∈ candidates.zipIdx 1

def Withdraws : Prop :=
  ∃ asked failure, assistant = some asked ∧
    answer timeout asked request candidates = .error failure ∧ failure.isCancelled = true

end

theorem StandsFor.unique {reply : List Char} {m n : Nat} (hm : StandsFor reply m)
    (hn : StandsFor reply n) : m = n := by
  rw [← Choice.number?_bare_eq_some_iff] at hm hn
  exact Option.some.inj (hm.symm.trans hn)

theorem Sole.unique {property : Endpoint → Prop} {candidates : List Endpoint}
    {a b : Endpoint} (ha : Sole property candidates a) (hb : Sole property candidates b) :
    a = b := by
  classical
  rw [← filter_eq_singleton_iff] at ha hb
  exact List.singleton_inj.mp (ha.symm.trans hb)

theorem Sole.iff_eq {property : Endpoint → Prop} {candidates : List Endpoint}
    {endpoint : Endpoint} (hsole : Sole property candidates endpoint) (other : Endpoint) :
    Sole property candidates other ↔ endpoint = other := by
  constructor
  · exact hsole.unique
  · rintro rfl
    exact hsole

theorem answer_unique {assistant : Option Assistant} {timeout : Nat} {request : String}
    {candidates : List Endpoint} {a b : Assistant} {first second : Except Failure String}
    (ha : assistant = some a) (hb : assistant = some b)
    (hfirst : answer timeout a request candidates = first)
    (hsecond : answer timeout b request candidates = second) : first = second := by
  cases ha.symm.trans hb
  exact hfirst.symm.trans hsecond

namespace Consults

variable {assistant : Option Assistant} {timeout : Nat} {request : String}
  {candidates : List Endpoint} {resolution : Resolution}
  {conversations : List (List Message)} {notices : List Notice}

theorem outcome (hconsults : Consults assistant timeout request candidates resolution
      conversations notices) :
    (∃ endpoint, resolution = .selected endpoint .assistant) ∨ resolution = .cancelled ∨
      resolution = .needsClarification candidates := by
  cases hconsults with
  | unasked _ =>
      exact Or.inr (Or.inr rfl)
  | chosen _ _ _ _ =>
      exact Or.inl ⟨_, rfl⟩
  | objected _ _ _ =>
      exact Or.inr (Or.inr rfl)
  | failed _ _ _ =>
      exact Or.inr (Or.inr rfl)
  | withdrawn _ _ _ =>
      exact Or.inr (Or.inl rfl)

theorem conversations_eq (hconsults : Consults assistant timeout request candidates
      resolution conversations notices) :
    conversations = if assistant.isSome then [conversation request candidates] else [] := by
  cases hconsults with
  | unasked hnone =>
      rw [hnone]
      rfl
  | chosen hasked _ _ _ =>
      rw [hasked]
      rfl
  | objected hasked _ _ =>
      rw [hasked]
      rfl
  | failed hasked _ _ =>
      rw [hasked]
      rfl
  | withdrawn hasked _ _ =>
      rw [hasked]
      rfl

theorem chosen_iff (hconsults : Consults assistant timeout request candidates resolution
      conversations notices) {endpoint : Endpoint} :
    resolution = .selected endpoint .assistant ↔
      Chooses assistant timeout request candidates endpoint := by
  constructor
  · rintro rfl
    cases hconsults with
    | @chosen asked reply index _ hasked hreply hnumber hendpoint =>
        have hbound := (List.getElem?_eq_some_iff.mp hendpoint).1
        have hprinted := List.mk_mem_zipIdx_iff_le_and_getElem?_sub.mpr
          ⟨Nat.le_add_left 1 index, hendpoint⟩
        exact ⟨asked, reply, index + 1, hasked, hreply, hnumber, Nat.le_add_left 1 index,
          hbound, hprinted⟩
  · rintro ⟨asked, reply, number, hasked, hreply, hnumber, hpos, hbound, hprinted⟩
    cases hconsults with
    | unasked hnone =>
        cases hnone.symm.trans hasked
    | chosen hother hsaid hmeant hfound =>
        cases answer_unique hasked hother hreply hsaid
        cases hnumber.unique hmeant
        have hplace := (List.mk_mem_zipIdx_iff_le_and_getElem?_sub.mp hprinted).2
        rw [Nat.add_sub_cancel, hfound] at hplace
        cases hplace
        rfl
    | objected hother hsaid hreason =>
        cases answer_unique hasked hother hreply hsaid
        -- No objection is made to the number of a candidate.
        rcases Nat.exists_eq_add_of_le' hpos with ⟨index, rfl⟩
        rw [Choice.ofReply_eq_candidate_iff.mpr ⟨hbound, hnumber⟩] at hreason
        cases hreason
    | failed hother hfailed _ =>
        cases answer_unique hasked hother hreply hfailed
    | withdrawn hother hfailed _ =>
        cases answer_unique hasked hother hreply hfailed

theorem cancelled_iff (hconsults : Consults assistant timeout request candidates resolution
      conversations notices) :
    resolution = .cancelled ↔ Withdraws assistant timeout request candidates := by
  constructor
  · rintro rfl
    cases hconsults with
    | @withdrawn asked failure hasked hfailed hcancelled =>
        exact ⟨asked, failure, hasked, hfailed, hcancelled⟩
  · rintro ⟨asked, failure, hasked, hfailed, hcancelled⟩
    cases hconsults with
    | unasked hnone =>
        cases hnone.symm.trans hasked
    | chosen hother hsaid _ _ =>
        cases answer_unique hasked hother hfailed hsaid
    | objected hother hsaid _ =>
        cases answer_unique hasked hother hfailed hsaid
    | failed hother hsaid hkind =>
        cases answer_unique hasked hother hfailed hsaid
        cases hkind.symm.trans hcancelled
    | withdrawn _ _ _ =>
        rfl

theorem clarified_iff (hconsults : Consults assistant timeout request candidates resolution
      conversations notices) {shown : List Endpoint} :
    resolution = .needsClarification shown ↔
      shown = candidates ∧
        (∀ endpoint, ¬ Chooses assistant timeout request candidates endpoint) ∧
        ¬ Withdraws assistant timeout request candidates := by
  rw [← hconsults.cancelled_iff]
  simp only [← hconsults.chosen_iff]
  rcases hconsults.outcome with ⟨endpoint, rfl⟩ | rfl | rfl
  · simp
  · simp
  · simp [eq_comm]

theorem markdown_last (hconsults : Consults assistant timeout request candidates resolution
      conversations notices) {shown : List Endpoint}
    (hshown : resolution = .needsClarification shown) :
    notices.getLast? = some (.markdown (clarification request shown)) := by
  cases (hconsults.clarified_iff.mp hshown).1
  cases hconsults with
  | unasked _ =>
      rfl
  | chosen _ _ _ _ =>
      cases hshown
  | objected _ _ _ =>
      rfl
  | failed _ _ _ =>
      rfl
  | withdrawn _ _ _ =>
      cases hshown

end Consults

/-!
## The whole cascade
-/

/-- What the outcome of a request depends on, stage by stage. -/
structure Decided (assistant : Option Assistant) (timeout : Nat) (request : String)
    (candidates : List Endpoint) (resolution : Resolution)
    (conversations : List (List Message)) (notices : List Notice) : Prop where
  notFound : resolution = .notFound ↔ candidates = []
  trivial : ∀ endpoint, resolution = .selected endpoint .trivial ↔ candidates = [endpoint]
  direct : ∀ endpoint, resolution = .selected endpoint .directMatch ↔
    2 ≤ candidates.length ∧ Sole (Names request.toList) candidates endpoint
  keyword : ∀ endpoint, resolution = .selected endpoint .keywordMatch ↔
    2 ≤ candidates.length ∧
      (∀ other, ¬ Sole (Names request.toList) candidates other) ∧
      Sole (Hit request.toList) candidates endpoint
  asked : assistant.isSome → Undecided request candidates →
    conversations = [conversation request (shortlist request candidates)]
  spared : assistant = none ∨ ¬ Undecided request candidates → conversations = []
  chosen : ∀ endpoint, resolution = .selected endpoint .assistant ↔
    Undecided request candidates ∧
      Chooses assistant timeout request (shortlist request candidates) endpoint
  clarified : ∀ shown, resolution = .needsClarification shown ↔
    Undecided request candidates ∧ shown = shortlist request candidates ∧
      (∀ endpoint,
        ¬ Chooses assistant timeout request (shortlist request candidates) endpoint) ∧
      ¬ Withdraws assistant timeout request (shortlist request candidates)
  shown : ∀ shown, resolution = .needsClarification shown →
    notices.getLast? = some (.markdown (clarification request shown))
  cancelled : resolution = .cancelled ↔
    Undecided request candidates ∧
      Withdraws assistant timeout request (shortlist request candidates)
  lastStage : ∀ endpoint, resolution ≠ .selected endpoint .clarification

theorem ne_short_of_two_le {candidates : List Endpoint} (hseveral : 2 ≤ candidates.length) :
    candidates ≠ [] ∧ ∀ endpoint, candidates ≠ [endpoint] := by
  constructor
  · rintro rfl
    cases hseveral
  · rintro endpoint rfl
    cases Nat.le_of_succ_le_succ hseveral

section

variable {assistant : Option Assistant} {timeout : Nat} {request : String}
  {candidates : List Endpoint} {resolution : Resolution}
  {conversations : List (List Message)} {notices : List Notice}

theorem Consults.decided (hundecided : Undecided request candidates)
    (hconsults : Consults assistant timeout request (shortlist request candidates) resolution
      conversations notices) :
    Decided assistant timeout request candidates resolution conversations notices := by
  have hlate : resolution ≠ .notFound ∧
      ∀ endpoint stage, stage ≠ .assistant → resolution ≠ .selected endpoint stage := by
    rcases hconsults.outcome with ⟨endpoint, rfl⟩ | rfl | rfl
    · exact ⟨nofun, fun other stage hstage heq => hstage (by cases heq; rfl)⟩
    · simp
    · simp
  constructor
  · exact iff_of_false hlate.1 (ne_short_of_two_le hundecided.1).1
  · intro endpoint
    exact iff_of_false (hlate.2 endpoint .trivial nofun)
      ((ne_short_of_two_le hundecided.1).2 endpoint)
  · intro endpoint
    exact iff_of_false (hlate.2 endpoint .directMatch nofun)
      fun hdirect => hundecided.2.1 endpoint hdirect.2
  · intro endpoint
    exact iff_of_false (hlate.2 endpoint .keywordMatch nofun)
      fun hkeyword => hundecided.2.2 endpoint hkeyword.2.2
  · intro hsome _
    rw [hconsults.conversations_eq, if_pos hsome]
  · rintro (hnone | hdecided)
    · rw [hconsults.conversations_eq, hnone]
      rfl
    · exact absurd hundecided hdecided
  · intro endpoint
    rw [hconsults.chosen_iff]
    exact (and_iff_right hundecided).symm
  · intro shown
    rw [hconsults.clarified_iff]
    exact (and_iff_right hundecided).symm
  · exact fun shown hshown => hconsults.markdown_last hshown
  · rw [hconsults.cancelled_iff]
    exact (and_iff_right hundecided).symm
  · exact fun endpoint => hlate.2 endpoint .clarification nofun

theorem Settles.decided (hsettles : Settles assistant timeout request candidates resolution
      conversations notices) :
    Decided assistant timeout request candidates resolution conversations notices := by
  cases hsettles with
  | nothing hcandidates =>
      subst hcandidates
      have hclear : ¬ Undecided request [] := fun hundecided => by cases hundecided.1
      constructor <;> simp [hclear]
  | @only endpoint hcandidates =>
      subst hcandidates
      have hclear : ¬ Undecided request [endpoint] :=
        fun hundecided => (ne_short_of_two_le hundecided.1).2 endpoint rfl
      constructor <;> simp [hclear]
  | @direct endpoint hseveral hnamed =>
      have hclear : ¬ Undecided request candidates :=
        fun hundecided => hundecided.2.1 endpoint hnamed
      have hshort := ne_short_of_two_le hseveral
      constructor <;> simp [hseveral, hshort, hclear, hnamed.iff_eq]
  | @keyword endpoint hseveral hunnamed hhit =>
      have hclear : ¬ Undecided request candidates :=
        fun hundecided => hundecided.2.2 endpoint hhit
      have hshort := ne_short_of_two_le hseveral
      constructor <;> simp [hseveral, hshort, hclear, hunnamed, hhit.iff_eq]
  | consulted hundecided hconsults =>
      exact hconsults.decided hundecided

end

def printed (candidates : List Endpoint) : String :=
  String.join <| (candidates.zipIdx 1).map fun (endpoint, number) =>
    toString number ++ ". " ++
      (endpoint.route ++ " (handler: " ++ endpoint.handler ++ ")") ++ "\n"

theorem numbered_eq_printed (candidates : List Endpoint) :
    numbered (fun e => e.route ++ " (handler: " ++ e.handler ++ ")") candidates =
      printed candidates := by
  rw [numbered, printed, List.zipIdx_succ, List.map_map]
  rfl

theorem exists_printed (request : String) (candidates : List Endpoint) :
    ∃ before after, conversation request candidates =
      [⟨.system, instruction⟩, ⟨.user, before ++ printed candidates ++ after⟩] := by
  refine ⟨"Request: " ++ request ++ "\n\nCandidate endpoints:\n",
    "\nReply with the number of the one endpoint the request refers to. " ++
      "Reply None if no endpoint fits or several fit equally well.", ?_⟩
  rw [conversation, question, numbered_eq_printed, ← String.append_assoc]

/-- A resolution that nobody cancels has the only outcome that the request, the sorted
endpoints and the complete reply of the assistant allow. -/
theorem never_guesses (guard : Guard) (assistant : Option Assistant) (query : String)
    (endpoints : List Endpoint) (moment : Moment) :
    (guard.cancelAt = none →
      (∀ asked messages, assistant = some asked →
        Step.cancel ∉ (asked.reply messages).steps) →
      moment.cancelled = false →
      (run guard assistant query endpoints moment).progress.moment.cancelled = false) ∧
    ((run guard assistant query endpoints moment).progress.moment.cancelled = false →
      (run guard assistant query endpoints moment).Ends
        (Decided assistant guard.timeout (Text.trimmed query) (Endpoint.sort endpoints))) ∧
    shortlist (Text.trimmed query) (Endpoint.sort endpoints) =
      (if 2 ≤ ((Endpoint.sort endpoints).filter fun endpoint =>
          Hit (Text.trimmed query).toList endpoint).length then
        (Endpoint.sort endpoints).filter fun endpoint =>
          Hit (Text.trimmed query).toList endpoint
      else
        Endpoint.sort endpoints) ∧
    ∃ before after,
      conversation (Text.trimmed query)
          (shortlist (Text.trimmed query) (Endpoint.sort endpoints)) =
        [⟨.system, instruction⟩,
          ⟨.user, before ++ printed (shortlist (Text.trimmed query) (Endpoint.sort endpoints))
            ++ after⟩] := by
  refine ⟨?_, ?_, narrow_eq _ _, exists_printed _ _⟩
  · intro hguard hassistant hlive
    exact live_follow hguard hassistant _ _ hlive
  · intro hend
    exact (settles_run hend).decided

def shop : List Endpoint :=
  [⟨.get, "/orders", "listOrders", ⟨⟨"Orders.java"⟩, ⟨3, 4⟩⟩, 2, 4⟩,
    ⟨.get, "/users", "listUsers", ⟨⟨"Users.java"⟩, ⟨3, 4⟩⟩, 2, 4⟩,
    ⟨.post, "/users", "createUser", ⟨⟨"Users.java"⟩, ⟨6, 4⟩⟩, 5, 7⟩,
    ⟨.get, "/users/\x7bid\x7d", "getUser", ⟨⟨"Users.java"⟩, ⟨9, 4⟩⟩, 8, 10⟩]

def steadfast : Assistant where
  model := "steadfast"
  ask _ := ⟨[.wait 30], .ok (.ofPieces [.immediate (.ok "**"), .immediate (.ok "2.**\n")])⟩

theorem sort_shop : Endpoint.sort shop = shop := by
  apply List.mergeSort_of_pairwise
  decide +kernel

theorem never_guesses_shop :
    (run ⟨1000, none⟩ (some steadfast) " users " shop .start).progress.conversations =
        [conversation "users" (shop.drop 1)] ∧
      ∃ endpoint, shop[2]? = some endpoint ∧
        (run ⟨1000, none⟩ (some steadfast) " users " shop .start).resolution =
          .selected endpoint .assistant ∧
        Undecided "users" shop ∧
        Chooses (some steadfast) 1000 "users" (shop.drop 1) endpoint := by
  have hquiet : ∀ asked messages, some steadfast = some asked →
      Step.cancel ∉ (asked.reply messages).steps := by
    rintro asked messages heq
    cases heq
    have hsteps : (steadfast.reply messages).steps = [.wait 30] := rfl
    rw [hsteps]
    decide
  have htrimmed : Text.trimmed " users " = "users" := rfl
  have hshortlist : shortlist "users" shop = shop.drop 1 := rfl
  rcases never_guesses ⟨1000, none⟩ (some steadfast) " users " shop .start with
    ⟨hlive, hends, _⟩
  have hdecided := hends (hlive rfl hquiet rfl)
  rw [htrimmed, sort_shop] at hdecided
  have hresolution : (run ⟨1000, none⟩ (some steadfast) " users " shop .start).resolution =
      .selected shop[2] .assistant := by
    rw [run, sort_shop]
    rfl
  have hchosen := (hdecided.chosen shop[2]).mp hresolution
  rw [hshortlist] at hchosen
  refine ⟨?_, shop[2], rfl, hresolution, hchosen⟩
  rw [hdecided.asked rfl hchosen.1, hshortlist]

/-!
## Endpoints in any order

Files are looked at side by side, so the endpoints of a code base arrive in an order that
chance decides.  A resolution sorts them before it does anything else, and where the order of
presentation tells them apart everything that follows is the same: what is asked and told,
when, and which endpoint a number stands for.
-/

/-- The whole run is the same for endpoints in another order: its outcome, the candidates in
their order, the moments, what the assistant was asked and what the person was told. -/
theorem run_of_perm (guard : Guard) (assistant : Option Assistant) (query : String)
    (moment : Moment) {endpoints others : List Endpoint} (hperm : endpoints.Perm others)
    (hdistinguished : Endpoint.Distinguished endpoints) :
    run guard assistant query others moment = run guard assistant query endpoints moment := by
  have hsorted : Endpoint.sort endpoints = Endpoint.sort others :=
    Endpoint.sort_eq_of_perm hperm hdistinguished
  rw [run, run, hsorted]

theorem distinguished_shop : Endpoint.Distinguished shop := by
  have hroutes : (shop.map fun endpoint => (endpoint.path, endpoint.method)).Nodup := by
    decide
  intro a ha b hb hne
  by_contra hsame
  rw [not_or, not_or, not_ne_iff, not_ne_iff] at hsame
  exact hne (List.inj_on_of_nodup_map hroutes ha hb (Prod.ext hsame.1 hsame.2.1))

theorem run_of_perm_shop :
    shop.Perm shop.reverse ∧ Endpoint.Distinguished shop ∧
      run ⟨1000, some 2000⟩ (some steadfast) " users " shop.reverse .start =
        run ⟨1000, some 2000⟩ (some steadfast) " users " shop .start ∧
      (run ⟨1000, some 2000⟩ (some steadfast) " users " shop.reverse .start).resolution =
        .selected shop[2] .assistant := by
  have hperm : shop.Perm shop.reverse := (List.reverse_perm shop).symm
  have hrun := run_of_perm ⟨1000, some 2000⟩ (some steadfast) " users " .start hperm
    distinguished_shop
  refine ⟨hperm, distinguished_shop, hrun, ?_⟩
  rw [hrun, run, sort_shop]
  rfl

end Resolution
end EndpointTrace
