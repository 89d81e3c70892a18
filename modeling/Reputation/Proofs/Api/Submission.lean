import Reputation.Proofs.Api.Handling
import Reputation.Proofs.Store.Atomicity
import Reputation.Node
/-!
Requests that submit. A submission that is not published has not been refused by half: whichever
check or write turned it down, the tables are what they were.
-/
namespace Reputation

def Store.Tables.serviceWith (trust : SignerId → Float) (own : Option OwnKey) :
    Api.Service Tables :=
  { service trust with own }

namespace Api

open Store (Tables)

theorem Submission.status_of_ofRequest {r : Request} {status : Nat}
    (h : ofRequest r = .error status) : status ≠ 201 := by
  unfold ofRequest at h
  dsimp only at h
  split at h
  · cases h
    decide
  · split at h
    · cases h
      decide
    · split at h
      · cases h
        decide
      · cases h
        decide
      · split at h
        · cases h
        · cases h
          decide

theorem ApiError.status_ne_created (e : ApiError) : e.response.status ≠ 201 := by
  cases e <;> simp [response, status]

namespace Service

theorem mapError_eq_ok {ε ε' α : Type} {f : ε → ε'} {result : Except ε α} {x : α} :
    result.mapError f = .ok x ↔ result = .ok x := by
  cases result <;> simp [Except.mapError]

theorem mapError_eq_error {ε ε' α : Type} {f : ε → ε'} {result : Except ε α} {e : ε'} :
    result.mapError f = .error e ↔ ∃ cause, result = .error cause ∧ f cause = e := by
  cases result <;> simp [Except.mapError]

theorem exists_of_bind_eq_ok {ε α β : Type} {result : Except ε α} {f : α → Except ε β} {y : β}
    (h : result >>= f = .ok y) : ∃ x, result = .ok x ∧ f x = .ok y := by
  cases result with
  | ok x => exact ⟨x, rfl, h⟩
  | error e => cases h

theorem ofSubmission_ok {submission : Submission} {s : NewStatement}
    (h : ofSubmission submission = .ok s) : s.Obtained ∧ s.name ≠ "" := by
  unfold ofSubmission at h
  split at h
  · cases h
  · rename_i hname
    obtain ⟨first, hfirst, h⟩ := exists_of_bind_eq_ok (mapError_eq_ok.mp h)
    obtain ⟨second, hsecond, h⟩ := exists_of_bind_eq_ok h
    cases h
    refine ⟨⟨.parsed hfirst, ?_⟩, hname⟩
    intro e he
    obtain rfl : second = some e := he
    cases hgiven : submission.second with
    | none =>
      rw [hgiven] at hsecond
      cases hsecond
    | some text =>
      rw [hgiven, Option.mapM_some, map_eq_pure_bind] at hsecond
      obtain ⟨e', hparsed, heq⟩ := exists_of_bind_eq_ok hsecond
      cases heq
      exact .parsed hparsed

theorem ofSubmission_error {submission : Submission} {response : Response}
    (h : ofSubmission submission = .error response) : response.status ≠ 201 := by
  unfold ofSubmission at h
  split at h
  · cases h
    exact ApiError.status_ne_created _
  · obtain ⟨e, -, rfl⟩ := mapError_eq_error.mp h
    exact ApiError.status_ne_created _

def published (sub : Submitted) : Response :=
  ⟨201, some (.object [("statement", sub.statement.toJson),
    ("opinion", .ofInt64 sub.opinion.id.val), ("serial", .int sub.opinion.body.serial.toNat)])⟩

variable {t : Tables}

theorem run_submit_eq (trust : SignerId → Float) {own : OwnKey} {now : Instant} {ix : Index}
    {r : Request} {submission : Submission} {s : NewStatement}
    (hrequest : Submission.ofRequest r = .ok submission) (hs : ofSubmission submission = .ok s) :
    ExceptT.run ((Tables.serviceWith trust (some own)).submit now ix r) t =
      match ExceptT.run ((⟨Tables.records, Tables.keys, trust⟩ : Engine Tables).submit Tables.writer
        ix s ⟨submission.certainty, submission.comment⟩ own now) t with
      | (.error e, after) => (.error (ApiError.ofError e).response, after)
      | (.ok (sub, ix'), after) => (.ok (published sub, ix'), after) := by
  unfold submit
  simp only [hrequest, Tables.serviceWith, pure_bind, hs]
  change ExceptT.run (attempt (Engine.submit ⟨Tables.records, Tables.keys, trust⟩ Tables.writer ix s
    ⟨submission.certainty, submission.comment⟩ own now) >>= fun done =>
      pure (published done.1, done.2)) t = _
  rw [Attempt.run_bind_eq, run_attempt_eq]
  rcases ExceptT.run (Engine.submit ⟨Tables.records, Tables.keys, trust⟩ Tables.writer ix s
    ⟨submission.certainty, submission.comment⟩ own now) t with ⟨e | ⟨sub, ix'⟩, after⟩
  · rfl
  · rfl

theorem submit_outcome (h : t.Sound) (hroom : t.opinions.length < 2 ^ 63 - 1)
    (trust : SignerId → Float) (own : Option OwnKey) (now : Instant) (ix : Index) (r : Request) :
    (∃ response, ExceptT.run ((Tables.serviceWith trust own).submit now ix r) t =
        (.error response, t) ∧ response.status ≠ 201) ∨
    ∃ s sub t', ExceptT.run ((Tables.serviceWith trust own).submit now ix r) t =
        (.ok (published sub, ix.insert sub.statement), t') ∧ t'.Sound ∧
      Tables.Published t t' s sub ∧
      t'.statement? = Function.update t.statement? sub.statement.id (some sub.statement) := by
  cases hrequest : Submission.ofRequest r with
  | error status =>
    refine .inl ⟨.refusal status, ?_, Submission.status_of_ofRequest hrequest⟩
    simp only [submit, hrequest]
    rfl
  | ok submission =>
    cases own with
    | none =>
      refine .inl ⟨noSigningKey.response, ?_, ApiError.status_ne_created _⟩
      simp only [submit, hrequest]
      rfl
    | some own =>
      cases hs : ofSubmission submission with
      | error response =>
        refine .inl ⟨response, ?_, ofSubmission_error hs⟩
        simp only [submit, hrequest, Tables.serviceWith, pure_bind, hs]
        rfl
      | ok s =>
        obtain ⟨hobtained, hname⟩ := ofSubmission_ok hs
        rw [run_submit_eq trust hrequest hs]
        obtain ⟨e, t', hrun, -, -, -, hsame⟩ | ⟨sub, t', hrun, hsound, hpublished, hread⟩ :=
          h.submit_outcome hobtained hroom trust ix ⟨submission.certainty, submission.comment⟩ own
            now
        · obtain rfl := hsame hname
          rw [hrun]
          exact .inl ⟨_, rfl, ApiError.status_ne_created _⟩
        · rw [hrun]
          exact .inr ⟨s.hashingEmails, sub, t', rfl, hsound, hpublished, hread⟩

end Service
end Api
end Reputation
