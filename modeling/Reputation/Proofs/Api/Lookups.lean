import Reputation.Proofs.Api.Operations
import Reputation.Proofs.Store.BadRows
import Reputation.Proofs.Store.Hints
/-!
Look-ups. Over every run of requests a look-up changes nothing but hints: those of the statements
that its verdict rests on. No answer depends on hints.
-/
namespace Reputation

open Api (Service Request Response Handling ApiError Route)
open Store (Tables)

namespace Api

/-- The time in a query, or else now. -/
inductive TimeAsked (now : Instant) (query : List Char) : Instant → Prop where
  | now (h : parameter (formPairs query) "as_of" = .ok none) : TimeAsked now query now
  | given (text : String) (t : Instant) (h : parameter (formPairs query) "as_of" = .ok (some text))
      (ht : Instant.parse? text = some t) : TimeAsked now query t

/-- What a look-up asks for: the entity in the path, at some time. -/
structure Asks (now : Instant) (segment query : List Char) (d : Descriptor) (asOf : Instant) :
    Prop where
  entity : ∃ text, decodeSegment? segment = some text ∧ Descriptor.parse text = .ok d
  time : TimeAsked now query asOf

theorem ApiError.status_ge (e : ApiError) : 400 ≤ e.response.status := by
  cases e <;> simp [response, status]

namespace Service

variable {σ : Type}

theorem asOf_outcome (σ : Type) (now : Instant) (query : List Char) :
    (asOf now query : Handling σ Instant) = throw (.refusal 400) ∨
    ∃ t, (asOf now query : Handling σ Instant) = pure t ∧ TimeAsked now query t := by
  unfold asOf
  rcases hgiven : parameter (formPairs query) "as_of" with e | - | text
  · exact .inl rfl
  · exact .inr ⟨now, rfl, .now hgiven⟩
  · dsimp only
    cases ht : Instant.parse? text with
    | none => exact .inl rfl
    | some t => exact .inr ⟨t, rfl, .given text t hgiven ht⟩

/-- A look-up is refused, or it reports the verdict on what it asks for and notes the weights. -/
theorem lookUp_outcome (svc : Service σ) (now : Instant) (ix : Index) (segment query : List Char)
    (world : σ) :
    (∃ response after, ExceptT.run (svc.lookUp now ix segment query) world =
      (.error response, after) ∧ response.status ≠ 200) ∨
    ∃ d asOf v after, Asks now segment query d asOf ∧
      ExceptT.run (svc.engine.resolve ix d asOf) world = (.ok v, after) ∧
      ExceptT.run (svc.lookUp now ix segment query) world =
        (.ok ⟨200, some v.toJson⟩, (svc.hints.recordHints v.statementWeights now after).2) := by
  have hfailed : ∀ e, (ApiError.ofError e).response.status ≠ 200 := by
    intro e
    have hge := (ApiError.ofError e).status_ge
    omega
  unfold lookUp
  cases hsegment : decodeSegment? segment with
  | none => exact .inl ⟨.refusal 400, world, rfl, by decide⟩
  | some text =>
    simp only [orRefuse, pure_bind]
    obtain hasOf | ⟨t, hasOf, htime⟩ := asOf_outcome σ now query
    · rw [hasOf]
      exact .inl ⟨.refusal 400, world, rfl, by decide⟩
    · rw [hasOf, pure_bind]
      cases hentity : Descriptor.parse text with
      | error e => exact .inl ⟨_, world, rfl, hfailed e⟩
      | ok d =>
        simp only [orFail, pure_bind]
        rw [Attempt.run_bind_eq, run_attempt_eq]
        rcases hresolve : ExceptT.run (svc.engine.resolve ix d t) world with ⟨e | v, after⟩
        · exact .inl ⟨_, after, rfl, hfailed e⟩
        · exact .inr ⟨d, t, v, after, ⟨⟨text, hsegment, hentity⟩, htime⟩, hresolve, rfl⟩

theorem run_handle_lookUp (svc : Service σ) (now : Instant) (ix : Index) {r : Request}
    {segment : List Char} (hmethod : r.method = .get ∨ r.method = .head)
    (hroute : Route.ofPath? r.path = some (.entity segment)) (world : σ) :
    (svc.handle now ix r).run world =
      let done := ExceptT.run (svc.lookUp now ix segment r.query) world
      let response := match done.1 with
        | .ok response => response
        | .error response => response
      ((if r.method = .head then { response with body := none } else response, ix), done.2) := by
  have hdispatch : svc.dispatch now ix r = (·, ix) <$> svc.lookUp now ix segment r.query := by
    simp [dispatch, hroute, hmethod]
  rw [run_handle_eq, hdispatch, Attempt.run_map_eq]
  rcases ExceptT.run (svc.lookUp now ix segment r.query) world with ⟨response | response, after⟩
  · rfl
  · rfl

end Service
end Api

namespace Store.Tables

variable {t : Tables} {v : Verdict}

/-- Just the statements that the verdict rests on have had their hints set, to the time in whole
seconds and the sum of the weights of their contributions. -/
structure Noted (t t' : Tables) (v : Verdict) (now : Instant) : Prop where
  stored : ∀ k ∈ v.contributing, t.hasStatement k.statementId
  set : ∀ id, v.contributionsTo id ≠ [] →
    t'.getHints id = .ok ⟨some now.wholeSecond, some (v.weightOn id)⟩
  kept : ∀ id, v.contributionsTo id = [] →
    t'.hints.filter (·.statementId = id) = t.hints.filter (·.statementId = id)

theorem noted_recordHints {trust : SignerId → Float}
    (hstored : ∀ k ∈ v.contributing, t.hasStatement k.statementId)
    (hweight : ∀ k ∈ v.contributing, k.weight = usableWeight (trust k.signerId)) (now : Instant) :
    t.Noted (t.recordHints v.statementWeights now) v now where
  stored := hstored
  set id hid := by
    have hsum : v.statementWeights[id]? = some (v.weightOn id) := by
      rw [v.getElem?_statementWeights, if_neg hid]
    obtain ⟨k, hk⟩ := List.exists_mem_of_ne_nil _ hid
    obtain ⟨hk, hkid⟩ := List.mem_filter.mp hk
    have hstatement : t.hasStatement id := of_decide_eq_true hkid ▸ hstored k hk
    rw [getHints_recordHints hsum hstatement, Verdict.storedReal_weightOn hweight]
  kept id hid := by
    apply filter_recordHints
    rw [v.getElem?_statementWeights, if_pos hid]

theorem resolve_outcome (h : t.Keyed) (trust : SignerId → Float) (ix : Index) (d : Descriptor)
    (asOf : Instant) :
    ∃ v, ExceptT.run ((⟨records, keys, trust⟩ : Engine Tables).resolve ix d asOf) t = (.ok v, t) ∧
      (∀ k ∈ v.contributing, t.hasStatement k.statementId) ∧
      ∀ k ∈ v.contributing, k.weight = usableWeight (trust k.signerId) := by
  have hkeys : ∀ signer, (keys.publicKeyFor signer).Answers (· = t) (t.publicKeyFor signer) := by
    rintro signer world rfl
    exact ⟨world, rfl, rfl⟩
  obtain ⟨_, rfl, hrun⟩ := ends_resolve_tables h trust hkeys ix d asOf t rfl
  refine ⟨_, hrun, ?_, ?_⟩
  · intro k hk
    rw [aggregate_eq, Verdict.weighing_contributing, List.mem_mergeSort,
      Content.mem_contributions_collected] at hk
    by_contra hgone
    have hnone := statement?_eq_none (Bool.eq_false_iff.mpr hgone)
    rw [← statement?_content h] at hnone
    exact Option.isSome_iff_ne_none.mp hk.2.1 hnone
  · intro k hk
    rw [aggregate_eq, Verdict.weighing_contributing, List.mem_mergeSort,
      Content.mem_contributions_collected] at hk
    exact hk.2.2.2

theorem mirrors_of_frame {α : Type} {read : Tables → Reply α}
    (hframe : ∀ t hints, read { t with hints } = read t) :
    Call.Mirrors (fun t u => t.SameRecords u ∧ t.Keyed) (fun t => (read t, t))
      fun t => (read t, t) := by
  rintro t u ⟨hsame, hkeyed⟩
  refine ⟨?_, hsame, hkeyed⟩
  rw [hsame.eq_with]
  exact (hframe t u.hints).symm

theorem twins_serviceWith (trust : SignerId → Float) (own : Option OwnKey) :
    (serviceWith trust own).Twins (serviceWith trust own) fun t u => t.SameRecords u ∧ t.Keyed where
  engine :=
    { trust := rfl
      getStatement := fun _ => mirrors_of_frame fun _ _ => rfl
      findStatements := fun _ _ _ => mirrors_of_frame fun _ _ => rfl
      scanStatements := mirrors_of_frame fun _ _ => rfl
      getOpinions := fun _ => mirrors_of_frame fun _ _ => rfl
      publicKeyFor := fun _ => mirrors_of_frame fun _ _ => rfl }
  hints weights usedAt t u := by
    rintro ⟨hsame, hkeyed⟩
    have hnoted := (SameRecords.refl t).recordHints weights usedAt
    have hnoted' := hsame.recordHints weights usedAt
    exact ⟨⟨hnoted'.statements.trans hnoted.statements.symm,
      hnoted'.opinions.trans hnoted.opinions.symm⟩, hnoted.keyed hkeyed⟩
  writer := by
    constructor
    · rintro s t u ⟨hsame, hkeyed⟩
      obtain ⟨hresult, hafter⟩ := hsame.insertStatement s
      exact ⟨congrArg reply hresult.symm, hafter, hkeyed.insertStatement s⟩
    · rintro o t u ⟨hsame, hkeyed⟩
      obtain ⟨hresult, hafter⟩ := hsame.insertOpinion o
      refine ⟨congrArg reply hresult.symm, hafter, ?_⟩
      change ((t.insertOpinion o).2.statements.map (·.id)).Nodup
      rw [insertOpinion_statements]
      exact hkeyed
  own := rfl

end Store.Tables

namespace Node

variable {σ τ : Type} {R : σ → τ → Prop}

def serve (n : Node σ) : List (Instant × Request) → List Response × Node σ
  | [] => ([], n)
  | (now, r) :: rest =>
    let (response, n) := n.handle now r
    let (responses, n) := n.serve rest
    (response :: responses, n)

theorem handle_eq (n : Node σ) (now : Instant) (r : Request) :
    n.handle now r =
      let done := (n.service.handle now n.index r).run n.world
      (done.1.1, { n with world := done.2, index := done.1.2 }) :=
  rfl

structure Paired (n : Node σ) (n' : Node τ) (R : σ → τ → Prop) : Prop where
  service : n.service.Twins n'.service R
  index : n'.index = n.index
  world : R n.world n'.world

theorem Paired.handle {n : Node σ} {n' : Node τ} (h : n.Paired n' R) (now : Instant)
    (r : Request) : (n'.handle now r).1 = (n.handle now r).1 ∧
      (n.handle now r).2.Paired (n'.handle now r).2 R := by
  obtain ⟨hout, hafter⟩ := h.service.handle now n.index r h.world
  rw [handle_eq, handle_eq, h.index]
  exact ⟨congrArg (·.1) hout.symm, h.service, congrArg (·.2) hout.symm, hafter⟩

theorem Paired.serve {n : Node σ} {n' : Node τ} (h : n.Paired n' R)
    (requests : List (Instant × Request)) : (n'.serve requests).1 = (n.serve requests).1 ∧
      (n.serve requests).2.Paired (n'.serve requests).2 R := by
  induction requests generalizing n n' with
  | nil => exact ⟨rfl, h⟩
  | cons request requests ih =>
    obtain ⟨now, r⟩ := request
    obtain ⟨hresponse, hafter⟩ := h.handle now r
    obtain ⟨hresponses, hdone⟩ := ih hafter
    refine ⟨?_, hdone⟩
    simp only [Node.serve, hresponse, hresponses]

section Tables

variable {trust : SignerId → Float} {own : Option OwnKey} {n n' : Node Tables}

theorem paired_of_sameRecords (hservice : n.service = Tables.serviceWith trust own)
    (hservice' : n'.service = n.service) (hindex : n'.index = n.index)
    (hsame : n.world.SameRecords n'.world) (hkeyed : n.world.Keyed) :
    n.Paired n' fun t u => t.SameRecords u ∧ t.Keyed := by
  refine ⟨?_, hindex, hsame, hkeyed⟩
  rw [hservice', hservice]
  exact Tables.twins_serviceWith trust own

theorem service_serve {σ : Type} (n : Node σ) (requests : List (Instant × Request)) :
    (n.serve requests).2.service = n.service := by
  induction requests generalizing n with
  | nil => rfl
  | cons request requests ih => exact ih (n.handle request.1 request.2).2

theorem handle_lookUp (hservice : n.service = Tables.serviceWith trust own)
    (hkeyed : n.world.Keyed) (now : Instant) {r : Request} {segment : List Char}
    (hmethod : r.method = .get ∨ r.method = .head)
    (hroute : Route.ofPath? r.path = some (.entity segment))
    (hok : (n.handle now r).1.status = 200) :
    ∃ d asOf v, Api.Asks now segment r.query d asOf ∧ (n.resolve d asOf).1 = .ok v ∧
      (r.method = .get → (n.handle now r).1.body = some v.toJson) ∧
      n.world.Noted (n.handle now r).2.world v now := by
  rw [handle_eq, hservice, Service.run_handle_lookUp _ now n.index hmethod hroute n.world] at hok ⊢
  obtain ⟨response, after, hrun, hstatus⟩ | ⟨d, asOf, v, after, hasks, hresolve, hrun⟩ :=
    (Tables.serviceWith trust own).lookUp_outcome now n.index segment r.query n.world
  · rw [hrun] at hok
    refine absurd ?_ hstatus
    split at hok <;> exact hok
  · obtain ⟨v', hresolve', hstored, hweight⟩ :=
      Tables.resolve_outcome hkeyed trust n.index d asOf
    obtain ⟨hv, rfl⟩ := Prod.mk.inj (hresolve.symm.trans hresolve')
    obtain rfl := Except.ok.inj hv
    rw [hrun]
    refine ⟨d, asOf, v, hasks, ?_, ?_, Tables.noted_recordHints hstored hweight now⟩
    · rw [resolve, run, hservice]
      exact congrArg Prod.fst hresolve
    · intro hget
      simp [hget]

/-- At any point of a run, all requests but submissions leave the statements and the opinions as
they are, and a look-up that succeeds notes just the statements that its verdict rests on. The
answers up to there are those of a node that differs only in hints. -/
theorem lookups_read_only (hservice : n.service = Tables.serviceWith trust own)
    (hkeyed : n.world.Keyed) (requests : List (Instant × Request)) :
    let m := (n.serve requests).2
    (∀ now r, ¬(r.method = .post ∧ Route.ofPath? r.path = some .statements) →
      m.world.SameRecords (m.handle now r).2.world) ∧
    (∀ now r segment, r.method = .get ∨ r.method = .head →
      Route.ofPath? r.path = some (.entity segment) → (m.handle now r).1.status = 200 →
      ∃ d asOf v, Api.Asks now segment r.query d asOf ∧ (m.resolve d asOf).1 = .ok v ∧
        (r.method = .get → (m.handle now r).1.body = some v.toJson) ∧
        m.world.Noted (m.handle now r).2.world v now) ∧
    ∀ n' : Node Tables, n'.service = n.service → n'.index = n.index →
      n.world.SameRecords n'.world → (n'.serve requests).1 = (n.serve requests).1 := by
  intro m
  have hserved := (paired_of_sameRecords hservice rfl rfl (.refl _) hkeyed).serve requests
  have hmservice : m.service = Tables.serviceWith trust own :=
    (service_serve n requests).trans hservice
  have hmkeyed : m.world.Keyed := hserved.2.world.2
  refine ⟨?_, ?_, ?_⟩
  · intro now r hother
    have hpreserves := preserves_serviceWith trust own (P := m.world.SameRecords)
      fun weights usedAt _ h => h.recordHints weights usedAt
    rw [← hmservice] at hpreserves
    exact hpreserves.handle now m.index hother (.refl _)
  · intro now r segment hmethod hroute hok
    exact handle_lookUp hmservice hmkeyed now hmethod hroute hok
  · intro n' hservice' hindex hsame
    exact ((paired_of_sameRecords hservice hservice' hindex hsame hkeyed).serve requests).1

def specimenAdvised (hints : List Store.HintRow) : Node Tables where
  service := Tables.serviceWith (fun _ => 1) none
  world :=
    { statements := [.ofNew ⟨1⟩ (.ofKey specimenKey.publicKey), .ofNew ⟨2⟩ Tables.specimenNetwork]
      opinions := [.ofSigned ⟨1⟩ ⟨specimenBody, specimen.signature⟩]
      hints := hints }
  index := .ofStatements [⟨⟨2⟩, "abuse", "10.0.0.0/8", none, Tables.specimenNetwork.range?⟩]

def specimenLookUp (address : String) : Request :=
  ⟨.get, ("/entity/" ++ address).toList, [], none, ""⟩

def specimenAsked : Node Tables :=
  ((specimenAdvised []).serve [(.epoch, specimenLookUp "192.0.2.1")]).2

theorem specimenAsked_answers :
    (specimenAsked.handle .epoch (specimenLookUp "10.1.2.3")).1.status = 200 ∧
      (specimenAsked.handle .epoch (specimenLookUp "10.1.2.3")).2.world.hints.map
        (·.statementId) = [⟨2⟩] := by
  decide +kernel

theorem lookups_read_only_network :
    let n := specimenAsked
    let n' := (n.handle .epoch (specimenLookUp "10.1.2.3")).2
    n.world.hints = [] ∧
    (∃ v, (n.handle .epoch (specimenLookUp "10.1.2.3")).1.body = some (Verdict.toJson v) ∧
      n'.world.getHints ⟨2⟩ = .ok ⟨some Instant.epoch.wholeSecond, some (v.weightOn ⟨2⟩)⟩) ∧
    n.world.SameRecords n'.world ∧
    ∀ hints requests, ((specimenAdvised hints).serve requests).1 =
      ((specimenAdvised []).serve requests).1 := by
  have hkeyed : (specimenAdvised []).world.Keyed := by decide
  have hroute : Route.ofPath? (specimenLookUp "10.1.2.3").path =
      some (.entity "10.1.2.3".toList) := by decide +kernel
  have hbefore : specimenAsked.world.hints = [] := by decide +kernel
  obtain ⟨hok, hafter⟩ := specimenAsked_answers
  obtain ⟨hsame, hlookUp, -⟩ := lookups_read_only (n := specimenAdvised []) rfl hkeyed
    [(.epoch, specimenLookUp "192.0.2.1")]
  obtain ⟨d, asOf, v, -, -, hbody, hnoted⟩ := hlookUp .epoch _ _ (.inl rfl) hroute hok
  refine ⟨hbefore, ⟨v, hbody rfl, hnoted.set ⟨2⟩ ?_⟩, hsame .epoch _ (by decide), ?_⟩
  · intro hnone
    have hkept := hnoted.kept ⟨2⟩ hnone
    obtain ⟨row, hrow, hid⟩ := List.mem_map.mp (hafter ▸ List.mem_singleton.mpr rfl)
    change _ = specimenAsked.world.hints.filter _ at hkept
    rw [hbefore] at hkept
    have hgone := List.filter_eq_nil_iff.mp hkept row hrow
    exact hgone (decide_eq_true hid)
  · intro hints requests
    exact (lookups_read_only (n := specimenAdvised []) rfl hkeyed requests).2.2
      (specimenAdvised hints) rfl rfl ⟨rfl, rfl⟩

end Tables
end Node
end Reputation
