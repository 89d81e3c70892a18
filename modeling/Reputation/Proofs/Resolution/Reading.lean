import Reputation.Resolution.Engine
import Mathlib.Data.List.Nodup
/-!
Computations over stores that answer. A store may change its world with every call, as long as its
answers stay those of one content; what a computation then ends with does not depend on the world.
-/
namespace Reputation

variable {σ α β : Type}

/-- From every world in `within` the computation ends so, in a world that is in `within` again. -/
def Attempt.Ends (within : σ → Prop) (a : Attempt σ α) (result : Except Error α) : Prop :=
  ∀ world, within world → ∃ after, within after ∧ ExceptT.run a world = (result, after)

def Call.Answers (within : σ → Prop) (call : Call σ α) (answer : α) : Prop :=
  ∀ world, within world → ∃ after, within after ∧ call world = (.answer answer, after)

namespace Attempt

variable {within : σ → Prop} {result : Except Error β}

theorem ends_pure (x : α) : Ends within (pure x) (.ok x) :=
  fun world hw => ⟨world, hw, rfl⟩

theorem ends_throw (e : Error) : Ends within (throw e : Attempt σ α) (.error e) :=
  fun world hw => ⟨world, hw, rfl⟩

theorem ends_ofExcept (result : Except Error α) : Ends within (Attempt.ofExcept result) result := by
  cases result with
  | ok x => exact ends_pure x
  | error e => exact ends_throw e

theorem run_bind_eq {ε : Type} (a : ExceptT ε (StateM σ) α) (f : α → ExceptT ε (StateM σ) β)
    (world : σ) :
    ExceptT.run (a >>= f) world =
      match ExceptT.run a world with
      | (.ok x, after) => ExceptT.run (f x) after
      | (.error e, after) => (.error e, after) := by
  rw [ExceptT.run_bind]
  change (StateT.bind _ _) world = _
  unfold StateT.bind
  rcases h : ExceptT.run a world with ⟨r, after⟩
  simp only [bind]
  cases r <;> rfl

theorem ends_bind {a : Attempt σ α} {f : α → Attempt σ β} {x : α} (ha : Ends within a (.ok x))
    (hf : Ends within (f x) result) : Ends within (a >>= f) result := by
  intro world hw
  obtain ⟨between, hbetween, hrun⟩ := ha world hw
  obtain ⟨after, hafter, hrest⟩ := hf between hbetween
  refine ⟨after, hafter, ?_⟩
  rw [run_bind_eq, hrun]
  exact hrest

theorem ends_bind_error {a : Attempt σ α} {f : α → Attempt σ β} {e : Error}
    (ha : Ends within a (.error e)) : Ends within (a >>= f) (.error e) := by
  intro world hw
  obtain ⟨after, hafter, hrun⟩ := ha world hw
  exact ⟨after, hafter, by rw [run_bind_eq, hrun]⟩

theorem run_map_eq {ε : Type} (f : α → β) (a : ExceptT ε (StateM σ) α) (world : σ) :
    ExceptT.run (f <$> a) world = ((ExceptT.run a world).1.map f, (ExceptT.run a world).2) := by
  rw [ExceptT.run_map]
  rfl

theorem ends_map {a : Attempt σ α} {result : Except Error α} (f : α → β)
    (ha : Ends within a result) : Ends within (f <$> a) (result.map f) := by
  intro world hw
  obtain ⟨after, hafter, hrun⟩ := ha world hw
  exact ⟨after, hafter, by rw [run_map_eq, hrun]⟩

theorem run_tryCatch_eq (a : Attempt σ α) (handle : Error → Attempt σ α) (world : σ) :
    ExceptT.run (tryCatch a handle : Attempt σ α) world =
      match ExceptT.run a world with
      | (.ok x, after) => (.ok x, after)
      | (.error e, after) => ExceptT.run (handle e) after := by
  rcases h : ExceptT.run a world with ⟨r, after⟩
  have h' : a world = (r, after) := h
  simp only [tryCatch, tryCatchThe, MonadExceptOf.tryCatch, ExceptT.tryCatch, ExceptT.run,
    ExceptT.mk, bind, StateT.bind, h']
  cases r <;> rfl

theorem ends_tryCatch_ok {a : Attempt σ α} {handle : Error → Attempt σ α} {x : α}
    (ha : Ends within a (.ok x)) : Ends within (tryCatch a handle) (.ok x) := by
  intro world hw
  obtain ⟨after, hafter, hrun⟩ := ha world hw
  exact ⟨after, hafter, by rw [run_tryCatch_eq, hrun]⟩

theorem ends_tryCatch_error {a : Attempt σ α} {handle : Error → Attempt σ α} {e : Error}
    {result : Except Error α} (ha : Ends within a (.error e))
    (hh : Ends within (handle e) result) : Ends within (tryCatch a handle) result := by
  intro world hw
  obtain ⟨between, hbetween, hrun⟩ := ha world hw
  obtain ⟨after, hafter, hrest⟩ := hh between hbetween
  exact ⟨after, hafter, by rw [run_tryCatch_eq, hrun]; exact hrest⟩

theorem ends_await {call : Call σ α} {answer : α} (h : call.Answers within answer) :
    Ends within call.await (.ok answer) := by
  intro world hw
  obtain ⟨after, hafter, hcall⟩ := h world hw
  refine ⟨after, hafter, ?_⟩
  change (call world).map Reply.result id = _
  rw [hcall]
  rfl

end Attempt

theorem Statement.ofRecord_ok {r : StatementRecord} {s : Statement} (h : ofRecord r = .ok s) :
    ∃ range, s = ⟨r.id, r.name, r.firstEntity, r.secondEntity, range⟩ := by
  unfold ofRecord at h
  split at h
  · cases h
  · split at h
    · cases h
    · split at h
      · cases h
      · split at h <;> cases h
        exact ⟨_, rfl⟩

theorem Statement.ofRecord_id {r : StatementRecord} {s : Statement} (h : ofRecord r = .ok s) :
    s.id = r.id := by
  obtain ⟨range, rfl⟩ := ofRecord_ok h
  rfl

theorem find?_key_eq_some {κ : Type} [DecidableEq κ] {key : α → κ} {xs : List α}
    (distinct : (xs.map key).Nodup) {k : κ} {x : α} :
    xs.find? (fun y => key y = k) = some x ↔ x ∈ xs ∧ key x = k := by
  constructor
  · intro h
    exact ⟨List.mem_of_find?_eq_some h, by simpa using List.find?_some h⟩
  · rintro ⟨hx, rfl⟩
    have hsome : (xs.find? fun y => key y = key x).isSome := by
      rw [List.find?_isSome]
      exact ⟨x, hx, by simp⟩
    obtain ⟨y, hy⟩ := Option.isSome_iff_exists.mp hsome
    have hkey : key y = key x := by simpa using List.find?_some hy
    rw [hy, List.inj_on_of_nodup_map distinct (List.mem_of_find?_eq_some hy) hx hkey]

theorem toOption_eq_some {ε : Type} {result : Except ε α} {x : α} :
    result.toOption = some x ↔ result = .ok x := by
  cases result <;> simp [Except.toOption]

theorem toOption_map_eq_some {ε : Type} {result : Except ε α} {f : α → β} {y : β} :
    result.toOption.map f = some y ↔ ∃ x, result = .ok x ∧ f x = y := by
  simp only [Option.map_eq_some_iff, toOption_eq_some]

theorem keys_filterMap_sublist {κ : Type} {f : α → Option β} {key : α → κ} {key' : β → κ}
    (h : ∀ x y, f x = some y → key' y = key x) (xs : List α) :
    ((xs.filterMap f).map key').Sublist (xs.map key) := by
  induction xs with
  | nil => exact List.Sublist.refl _
  | cons x xs ih =>
    cases hx : f x with
    | none => simpa [hx] using ih.cons _
    | some y => simpa [hx, h x y hx] using ih

theorem values_eq_map_toList {κ : Type} {cmp : κ → κ → Ordering} (m : Std.TreeMap κ α cmp) :
    m.values = m.toList.map (·.2) := by
  have hfold : m.values = m.foldr (fun _ x xs => x :: xs) [] := rfl
  rw [hfold, Std.TreeMap.foldr_eq_foldr_toList]
  induction m.toList with
  | nil => rfl
  | cons entry entries ih => rw [List.foldr_cons, ih, List.map_cons]

/-- The opinions listed for each statement, misfiled ones among them, and the keys of signers. -/
structure Testimony where
  opinions : StatementId → List Opinion
  key? : SignerId → Option PublicKey

/-- What stores hold. The statements, each under a number of its own, are listed in some order. -/
structure Content extends Testimony where
  records : List StatementRecord
  distinct : (records.map (·.id)).Nodup

namespace Content

def record? (c : Content) (id : StatementId) : Option StatementRecord :=
  c.records.find? fun r => r.id = id

def statement? (c : Content) (id : StatementId) : Option Statement :=
  (c.record? id).bind fun r => (Statement.ofRecord r).toOption

theorem record?_eq_some {c : Content} {id : StatementId} {r : StatementRecord} :
    c.record? id = some r ↔ r ∈ c.records ∧ r.id = id :=
  find?_key_eq_some c.distinct

theorem statement?_eq_some {c : Content} {id : StatementId} {s : Statement} :
    c.statement? id = some s ↔ ∃ r ∈ c.records, r.id = id ∧ Statement.ofRecord r = .ok s := by
  simp only [statement?, Option.bind_eq_some_iff, record?_eq_some, and_assoc]
  refine exists_congr fun r => and_congr_right fun _ => and_congr_right fun _ => ?_
  cases Statement.ofRecord r <;> simp [Except.toOption]

end Content

/-- Calls for opinions and keys answer and do not fail. -/
structure Engine.Hears (e : Engine σ) (t : Testimony) (within : σ → Prop) : Prop where
  getOpinions : ∀ id, (e.store.getOpinions id).Answers within (t.opinions id)
  publicKeyFor : ∀ signer, (e.keys.publicKeyFor signer).Answers within (t.key? signer)

/-- No call that reads fails. -/
structure Engine.Reads (e : Engine σ) (c : Content) (within : σ → Prop) : Prop
    extends e.Hears c.toTestimony within where
  getStatement : ∀ id, (e.store.getStatement id).Answers within (c.record? id)
  scanStatements : e.store.scanStatements.Answers within c.records

end Reputation
