import Reputation.Proofs.Resolution.Reading
import Reputation.Proofs.Resolution.Routine
/-!
Computations side by side. Where two stores answer every call alike from worlds that are related,
and leave them related, whatever is computed over the one comes out the same over the other. Beside
itself, a computation keeps to what its calls keep to.
-/
namespace Reputation

variable {σ τ ε α β : Type}

/-- From related worlds both end alike, with an answer or an error, in worlds related again. -/
def Alike (R : σ → τ → Prop) (a : ExceptT ε (StateM σ) α) (b : ExceptT ε (StateM τ) α) : Prop :=
  ∀ w v, R w v → (ExceptT.run a w).1 = (ExceptT.run b v).1 ∧
    R (ExceptT.run a w).2 (ExceptT.run b v).2

def Call.Mirrors (R : σ → τ → Prop) (call : Call σ α) (call' : Call τ α) : Prop :=
  ∀ w v, R w v → (call w).1 = (call' v).1 ∧ R (call w).2 (call' v).2

namespace Alike

variable {R : σ → τ → Prop}

theorem pure (x : α) : Alike R (pure x : ExceptT ε (StateM σ) α) (pure x) :=
  fun _ _ h => ⟨rfl, h⟩

theorem throw (e : ε) : Alike R (throw e : ExceptT ε (StateM σ) α) (throw e) :=
  fun _ _ h => ⟨rfl, h⟩

theorem bind {a : ExceptT ε (StateM σ) α} {b : ExceptT ε (StateM τ) α}
    {f : α → ExceptT ε (StateM σ) β} {g : α → ExceptT ε (StateM τ) β} (hab : Alike R a b)
    (hfg : ∀ x, Alike R (f x) (g x)) : Alike R (a >>= f) (b >>= g) := by
  intro w v h
  obtain ⟨hresult, hafter⟩ := hab w v h
  rw [Attempt.run_bind_eq, Attempt.run_bind_eq]
  rcases ha : ExceptT.run a w with ⟨result, w'⟩
  rcases hb : ExceptT.run b v with ⟨result', v'⟩
  rw [ha, hb] at hresult hafter
  obtain rfl : result = result' := hresult
  cases result with
  | ok x => exact hfg x w' v' hafter
  | error e => exact ⟨rfl, hafter⟩

theorem map {a : ExceptT ε (StateM σ) α} {b : ExceptT ε (StateM τ) α} (f : α → β)
    (hab : Alike R a b) : Alike R (f <$> a) (f <$> b) := by
  rw [map_eq_pure_bind, map_eq_pure_bind]
  exact hab.bind fun x => .pure (f x)

theorem tryCatch {a : Attempt σ α} {b : Attempt τ α} {f : Error → Attempt σ α}
    {g : Error → Attempt τ α} (hab : Alike R a b) (hfg : ∀ e, Alike R (f e) (g e)) :
    Alike R (tryCatch a f) (tryCatch b g) := by
  intro w v h
  obtain ⟨hresult, hafter⟩ := hab w v h
  rw [Attempt.run_tryCatch_eq, Attempt.run_tryCatch_eq]
  rcases ha : ExceptT.run a w with ⟨result, w'⟩
  rcases hb : ExceptT.run b v with ⟨result', v'⟩
  rw [ha, hb] at hresult hafter
  obtain rfl : result = result' := hresult
  cases result with
  | ok x => exact ⟨rfl, hafter⟩
  | error e => exact hfg e w' v' hafter

theorem await {call : Call σ α} {call' : Call τ α} (h : call.Mirrors R call') :
    Alike R call.await call'.await := by
  intro w v hwv
  obtain ⟨hreply, hafter⟩ := h w v hwv
  exact ⟨congrArg Reply.result hreply, hafter⟩

theorem ofExcept (result : Except Error α) :
    Alike R (Attempt.ofExcept result : Attempt σ α) (Attempt.ofExcept result) := by
  cases result with
  | ok x => exact .pure x
  | error e => exact .throw e

theorem checkpoint {cancelled : StateM σ Bool} {cancelled' : StateM τ Bool}
    (h : ∀ w v, R w v → (cancelled w).1 = (cancelled' v).1 ∧ R (cancelled w).2 (cancelled' v).2) :
    Alike R (Engine.checkpoint cancelled) (Engine.checkpoint cancelled') := by
  have hlook : Alike R (ExceptT.lift cancelled : Attempt σ Bool) (ExceptT.lift cancelled') := by
    intro w v hwv
    obtain ⟨hset, hafter⟩ := h w v hwv
    exact ⟨congrArg Except.ok hset, hafter⟩
  refine hlook.bind fun set => ?_
  cases set with
  | true => exact .throw _
  | false => exact .pure _

theorem checkpoint_unset : Alike R (Engine.checkpoint (Pure.pure false : StateM σ Bool))
    (Engine.checkpoint (Pure.pure false : StateM τ Bool)) :=
  .checkpoint fun _ _ h => ⟨rfl, h⟩

end Alike

/-- From related worlds the writers store alike. -/
structure StatementWriter.Mirrors (writer : StatementWriter σ) (writer' : StatementWriter τ)
    (R : σ → τ → Prop) : Prop where
  insertStatement : ∀ s, (writer.insertStatement s).Mirrors R (writer'.insertStatement s)
  insertOpinion : ∀ o, (writer.insertOpinion o).Mirrors R (writer'.insertOpinion o)

namespace Engine

/-- The engines trust alike, and their stores answer alike from related worlds. -/
structure Mirrors (e : Engine σ) (e' : Engine τ) (R : σ → τ → Prop) : Prop where
  trust : e'.trust = e.trust
  getStatement : ∀ id, (e.store.getStatement id).Mirrors R (e'.store.getStatement id)
  findStatements : ∀ name first second,
    (e.store.findStatements name first second).Mirrors R (e'.store.findStatements name first second)
  scanStatements : e.store.scanStatements.Mirrors R e'.store.scanStatements
  getOpinions : ∀ id, (e.store.getOpinions id).Mirrors R (e'.store.getOpinions id)
  publicKeyFor : ∀ signer, (e.keys.publicKeyFor signer).Mirrors R (e'.keys.publicKeyFor signer)

namespace Mirrors

variable {e : Engine σ} {e' : Engine τ} {R : σ → τ → Prop}
variable {cancelled : StateM σ Bool} {cancelled' : StateM τ Bool}

theorem fetch (h : e.Mirrors e' R) (id : StatementId) : Alike R (e.fetch id) (e'.fetch id) := by
  refine (Alike.await (h.getStatement id)).bind ?_
  intro found
  cases found with
  | none => exact .throw _
  | some r => exact .ofExcept _

theorem fetchCandidate (h : e.Mirrors e' R) (id : StatementId) :
    Alike R (e.fetchCandidate id) (e'.fetchCandidate id) := by
  refine ((h.fetch id).map some).tryCatch ?_
  intro err
  cases err <;> first | exact .pure _ | exact .throw _

theorem composes (h : e.Mirrors e' R)
    (hlook : Alike R (checkpoint cancelled) (checkpoint cancelled')) :
    Routine.Composes fun _ p => Alike R (p σ e cancelled) (p τ e' cancelled') where
  weighed f := by
    dsimp only
    rw [h.trust]
    exact .pure _
  bind := .bind
  getOpinions id := .await (h.getOpinions id)
  publicKeyFor signer := .await (h.publicKeyFor signer)
  fetchCandidate := h.fetchCandidate
  checkpoint := hlook

theorem resolve (h : e.Mirrors e' R) (ix : Index) (d : Descriptor) (asOf : Instant) :
    Alike R (e.resolve ix d asOf) (e'.resolve ix d asOf) :=
  (h.composes Alike.checkpoint_unset).resolveWith ix d asOf

theorem resolveStatement (h : e.Mirrors e' R) (id : StatementId) (asOf : Instant) :
    Alike R (e.resolveStatement id asOf) (e'.resolveStatement id asOf) := by
  refine (h.composes Alike.checkpoint_unset).resolveStatement ?_ asOf
  refine ((h.fetch id).map some).tryCatch ?_
  intro err
  cases err <;> first | exact .pure _ | exact .throw _

theorem find (h : e.Mirrors e' R) (name first : String) (second : Option String) :
    Alike R (e.findStatements name first second) (e'.findStatements name first second) :=
  (Alike.await (h.findStatements name first second)).bind fun _ => .ofExcept _

theorem freshIndex (h : e.Mirrors e' R) : Alike R e.freshIndex e'.freshIndex :=
  (Alike.await h.scanStatements).bind fun _ => .pure _

theorem submit (h : e.Mirrors e' R) {writer : StatementWriter σ} {writer' : StatementWriter τ}
    (hwriter : writer.Mirrors writer' R) (ix : Index) (s : NewStatement) (draft : Draft)
    (own : OwnKey) (now : Instant) :
    Alike R (e.submit writer ix s draft own now) (e'.submit writer' ix s draft own now) := by
  refine (Alike.await (hwriter.insertStatement _)).bind ?_
  intro statement
  refine (Alike.await (h.getOpinions statement.id)).bind ?_
  intro previous
  exact (Alike.await (hwriter.insertOpinion _)).bind fun _ => .pure _

end Mirrors
end Engine

/-- Whatever comes of the computation, what holds of the world before it holds after it. -/
def Keeps (P : σ → Prop) (a : ExceptT ε (StateM σ) α) : Prop :=
  ∀ world, P world → P (ExceptT.run a world).2

theorem Alike.keeps {P : σ → Prop} {a : ExceptT ε (StateM σ) α}
    (h : Alike (fun w v => w = v ∧ P w) a a) : Keeps P a :=
  fun world hworld => (h world world ⟨rfl, hworld⟩).2.2

/-- No call for reading makes a difference to `P`. -/
structure Engine.Preserves (e : Engine σ) (P : σ → Prop) : Prop where
  getStatement : ∀ id world, P world → P (e.store.getStatement id world).2
  findStatements : ∀ name first second world, P world →
    P (e.store.findStatements name first second world).2
  scanStatements : ∀ world, P world → P (e.store.scanStatements world).2
  getOpinions : ∀ id world, P world → P (e.store.getOpinions id world).2
  publicKeyFor : ∀ signer world, P world → P (e.keys.publicKeyFor signer world).2

theorem Call.mirrors_self {P : σ → Prop} {call : Call σ α}
    (h : ∀ world, P world → P (call world).2) : call.Mirrors (fun w v => w = v ∧ P w) call := by
  rintro w v ⟨rfl, hw⟩
  exact ⟨rfl, rfl, h w hw⟩

theorem Engine.Preserves.mirrors {e : Engine σ} {P : σ → Prop} (h : e.Preserves P) :
    e.Mirrors e fun w v => w = v ∧ P w where
  trust := rfl
  getStatement id := Call.mirrors_self (h.getStatement id)
  findStatements name first second := Call.mirrors_self (h.findStatements name first second)
  scanStatements := Call.mirrors_self h.scanStatements
  getOpinions id := Call.mirrors_self (h.getOpinions id)
  publicKeyFor signer := Call.mirrors_self (h.publicKeyFor signer)

end Reputation
