import Reputation.Proofs.Api.Submission
import Reputation.Proofs.Store.Framing
import Mathlib.Data.List.Infix
/-!
A node over tables at work. Over every run of operations the index keeps in step with the tables:
following each change gives the answers that indexing everything anew would give. A request to
publish takes effect as a whole or not at all, whatever came before it.
-/
namespace Reputation

open Api (Request Response Route Service)
open Store (Tables Database)
open Store.Tables (specimenDomain specimenNetwork specimenDomain_obtained specimenNetwork_obtained)

/-- What a node is asked to do, on the spot or over the network. -/
inductive Operation where
  | submit (s : NewStatement) (draft : Draft) (own : OwnKey) (now : Instant)
  | refresh
  | statement (s : NewStatement)
  | opinion (o : SignedOpinion)
  | purge (id : StatementId)
  | request (now : Instant) (r : Request)

def Operation.Obtained : Operation → Prop
  | submit s _ _ _ => s.Obtained
  | statement s => s.Obtained
  | _ => True

namespace Node

/-- A statement that is stored is added to the index, and one that is purged is taken out of it. -/
def perform (n : Node Tables) : Operation → Node Tables
  | .submit s draft own now => (n.submit s draft own now).2
  | .refresh => n.refresh.2
  | .statement s => match n.world.insertStatement s with
    | (.ok st, world) => { n with world }.added st
    | (.error _, world) => { n with world }
  | .opinion o => { n with world := (n.world.insertOpinion o).2 }
  | .purge id => ({ n with world := (n.world.purge id).2 }.removed id).2
  | .request now r => (n.handle now r).2

def work (n : Node Tables) (ops : List Operation) : Node Tables := ops.foldl perform n

/-- The node that is started on tables, with everything indexed that they hold. -/
def opened (trust : SignerId → Float) (own : Option OwnKey) (t : Tables) : Node Tables :=
  (start (Tables.serviceWith trust own) t).2

/-- At no point of the run has the database run out of numbers for opinions. -/
def NeverFull (n : Node Tables) (ops : List Operation) : Prop :=
  ∀ done, done <+: ops → (n.work done).world.opinions.length < 2 ^ 63 - 1

/-- The index has what the tables hold. -/
structure InStep (n : Node Tables) : Prop where
  service : ∃ trust own, n.service = Tables.serviceWith trust own
  sound : n.world.Sound
  index : n.index.Holds n.world.statement?

theorem InStep.answersAs {n : Node Tables} (h : n.InStep) :
    n.index.AnswersAs (.ofRecords n.world.scanStatements) :=
  h.index.answersAs (Tables.holds_ofRecords h.sound.keyed)

/-- The node after an operation, which has stored at most one opinion. -/
structure Advances (n n' : Node Tables) : Prop where
  inStep : n'.InStep
  opinions : n'.world.opinions.length ≤ n.world.opinions.length + 1

section Operations

variable {n : Node Tables}

theorem runIndexed_ok {σ α : Type} {n : Node σ} {a : Attempt σ (α × Index)} {x : α}
    {ix : Index} {after : σ} (h : ExceptT.run a n.world = (.ok (x, ix), after)) :
    n.runIndexed a = (.ok x, { n with world := after, index := ix }) := by
  simp only [runIndexed, run, h]

theorem runIndexed_error {σ α : Type} {n : Node σ} {a : Attempt σ (α × Index)} {e : Error}
    {after : σ} (h : ExceptT.run a n.world = (.error e, after)) :
    n.runIndexed a = (.error e, { n with world := after }) := by
  simp only [runIndexed, run, h]

theorem refresh_eq (h : ∃ trust own, n.service = Tables.serviceWith trust own) :
    n.refresh.2 = { n with index := .ofRecords n.world.scanStatements } := by
  obtain ⟨service, world, index⟩ := n
  obtain ⟨trust, own, rfl⟩ := h
  rfl

theorem InStep.refresh (h : n.InStep) : n.Advances n.refresh.2 := by
  rw [refresh_eq h.service]
  exact ⟨⟨h.service, h.sound, Tables.holds_ofRecords h.sound.keyed⟩, Nat.le_succ _⟩

theorem Published.opinions_le {t t' : Tables} {s : NewStatement} {sub : Submitted}
    (h : Tables.Published t t' s sub) : t'.opinions.length ≤ t.opinions.length + 1 := by
  obtain ⟨row, -, hadded⟩ := h.opinions
  rw [hadded, List.length_append, List.length_singleton]

theorem InStep.submit (h : n.InStep) {s : NewStatement} (hs : s.Obtained)
    (hroom : n.world.opinions.length < 2 ^ 63 - 1) (draft : Draft) (own : OwnKey) (now : Instant) :
    n.Advances (n.submit s draft own now).2 := by
  obtain ⟨trust, key, hservice⟩ := h.service
  rw [Node.submit, hservice]
  obtain ⟨e, after, hrun, hsound, hopinions, hread, -⟩ |
      ⟨sub, after, hrun, hsound, hpublished, hread⟩ :=
    h.sound.submit_outcome hs hroom trust n.index draft own now
  · refine (runIndexed_error hrun).symm ▸ ⟨⟨h.service, hsound, ?_⟩, ?_⟩
    · exact hread ▸ h.index
    · exact (congrArg List.length hopinions).le.trans (Nat.le_succ _)
  · refine (runIndexed_ok hrun).symm ▸ ⟨⟨h.service, hsound, ?_⟩, Published.opinions_le hpublished⟩
    exact hread ▸ h.index.insert sub.statement

theorem InStep.statement (h : n.InStep) {s : NewStatement} (hs : s.Obtained) :
    n.Advances (n.perform (.statement s)) := by
  have hsound := h.sound.insertStatement hs
  have hopinions := Tables.insertStatement_opinions n.world s
  unfold perform
  dsimp only
  rcases hinsert : n.world.insertStatement s with ⟨e | st, after⟩
  · rw [hinsert] at hsound hopinions
    refine ⟨⟨h.service, hsound, ?_⟩, ?_⟩
    · exact Tables.statement?_insertStatement_error h.sound.keyed hinsert ▸ h.index
    · exact (congrArg List.length hopinions).le.trans (Nat.le_succ _)
  · rw [hinsert] at hsound hopinions
    refine ⟨⟨h.service, hsound, ?_⟩, ?_⟩
    · exact Tables.statement?_insertStatement_ok h.sound.keyed hinsert ▸ h.index.insert st
    · exact (congrArg List.length hopinions).le.trans (Nat.le_succ _)

theorem InStep.opinion (h : n.InStep) (o : SignedOpinion) :
    n.Advances (n.perform (.opinion o)) := by
  have hkept := Tables.insertOpinion_statements n.world o
  refine ⟨⟨h.service, h.sound.insertOpinion o, ?_⟩, ?_⟩
  · exact Tables.statement?_congr hkept ▸ h.index
  · change (n.world.insertOpinion o).2.opinions.length ≤ _
    obtain hsame | ⟨row, -, -, hadded⟩ := Tables.insertOpinion_tables n.world o
    · rw [hsame]
      exact Nat.le_succ _
    · rw [hadded, List.length_append, List.length_singleton]

theorem InStep.purge (h : n.InStep) (id : StatementId) :
    n.Advances (n.perform (.purge id)) := by
  refine ⟨⟨h.service, h.sound.purge id, ?_⟩, ?_⟩
  · exact Tables.statement?_purge n.world id ▸ h.index.remove id
  · exact (List.length_filter_le _ _).trans (Nat.le_succ _)

theorem preserves_serviceWith (trust : SignerId → Float) (own : Option OwnKey)
    {P : Tables → Prop} (hhints : ∀ weights usedAt t, P t → P (t.recordHints weights usedAt)) :
    (Tables.serviceWith trust own).Preserves P where
  engine := ⟨fun _ _ h => h, fun _ _ _ _ h => h, fun _ h => h, fun _ _ h => h, fun _ _ h => h⟩
  hints := hhints

theorem handle_of_run {σ : Type} {n : Node σ} {now : Instant} {r : Request} {response : Response}
    {ix : Index} {after : σ}
    (h : (n.service.handle now n.index r).run n.world = ((response, ix), after)) :
    n.handle now r = (response, { n with world := after, index := ix }) := by
  simp only [Node.handle, h]

/-- A request to publish is refused without a trace, or published as a whole. -/
theorem InStep.publication (h : n.InStep) (hroom : n.world.opinions.length < 2 ^ 63 - 1)
    (now : Instant) {r : Request} (hmethod : r.method = .post)
    (hroute : Route.ofPath? r.path = some .statements) :
    (∃ response, n.handle now r = (response, n) ∧ response.status ≠ 201) ∨
    ∃ s sub t', n.handle now r = (Service.published sub,
        { n with world := t', index := n.index.insert sub.statement }) ∧
      t'.Sound ∧ Tables.Published n.world t' s sub ∧
      t'.statement? = Function.update n.world.statement? sub.statement.id (some sub.statement) := by
  obtain ⟨trust, own, hservice⟩ := h.service
  have hhandle := Service.run_handle_submission n.service now n.index n.world hmethod hroute
  rw [hservice] at hhandle
  obtain ⟨response, hrun, hstatus⟩ | ⟨s, sub, t', hrun, hsound, hpublished, hread⟩ :=
    Service.submit_outcome h.sound hroom trust own now n.index r
  · rw [hrun, ← hservice] at hhandle
    exact .inl ⟨response, handle_of_run hhandle, hstatus⟩
  · rw [hrun, ← hservice] at hhandle
    exact .inr ⟨s, sub, t', handle_of_run hhandle, hsound, hpublished, hread⟩

theorem InStep.publish (h : n.InStep) (hroom : n.world.opinions.length < 2 ^ 63 - 1)
    (now : Instant) {r : Request} (hmethod : r.method = .post)
    (hroute : Route.ofPath? r.path = some .statements) : n.Advances (n.handle now r).2 := by
  obtain ⟨response, hhandle, -⟩ | ⟨s, sub, t', hhandle, hsound, hpublished, hread⟩ :=
    h.publication hroom now hmethod hroute
  · rw [hhandle]
    exact ⟨h, Nat.le_succ _⟩
  · rw [hhandle]
    refine ⟨⟨h.service, hsound, ?_⟩, Published.opinions_le hpublished⟩
    exact hread ▸ h.index.insert sub.statement

theorem InStep.reindex (h : n.InStep) (now : Instant) {r : Request} (hmethod : r.method = .post)
    (hroute : Route.ofPath? r.path = some .refresh) : n.Advances (n.handle now r).2 := by
  obtain ⟨trust, own, hservice⟩ := h.service
  have hfresh : ExceptT.run n.service.engine.freshIndex n.world =
      (.ok (.ofRecords n.world.scanStatements), n.world) := by
    rw [hservice]
    rfl
  have hhandle := Service.run_handle_refresh n.service now n.index n.world hmethod hroute
  rw [hfresh] at hhandle
  rw [handle_of_run hhandle]
  exact ⟨⟨h.service, h.sound, Tables.holds_ofRecords h.sound.keyed⟩, Nat.le_succ _⟩

theorem InStep.read (h : n.InStep) (now : Instant) {r : Request}
    (hother : r.method = .post →
      Route.ofPath? r.path ≠ some .statements ∧ Route.ofPath? r.path ≠ some .refresh) :
    n.Advances (n.handle now r).2 := by
  obtain ⟨trust, own, hservice⟩ := h.service
  have hpreserves : (Tables.serviceWith trust own).Preserves
      fun t => t.Sound ∧ n.world.SameRecords t :=
    preserves_serviceWith trust own fun weights usedAt _ ht =>
      ⟨ht.1.recordHints weights usedAt, ht.2.recordHints weights usedAt⟩
  rw [← hservice] at hpreserves
  have hkept := hpreserves.handle now n.index (fun hr => (hother hr.1).1 hr.2)
    ⟨h.sound, rfl, rfl⟩
  have hindex := Service.index_handle n.service now n.index n.world hother
  rcases hrun : (n.service.handle now n.index r).run n.world with ⟨⟨response, ix⟩, after⟩
  rw [hrun] at hkept hindex
  obtain ⟨hsound, hstatements, hopinions⟩ := hkept
  obtain rfl : ix = n.index := hindex
  rw [handle_of_run hrun]
  refine ⟨⟨h.service, hsound, ?_⟩, ?_⟩
  · exact Tables.statement?_congr hstatements ▸ h.index
  · exact (congrArg List.length hopinions).le.trans (Nat.le_succ _)

theorem InStep.request (h : n.InStep) (hroom : n.world.opinions.length < 2 ^ 63 - 1)
    (now : Instant) (r : Request) : n.Advances (n.handle now r).2 := by
  by_cases hpublish : r.method = .post ∧ Route.ofPath? r.path = some .statements
  · exact h.publish hroom now hpublish.1 hpublish.2
  · by_cases hreindex : r.method = .post ∧ Route.ofPath? r.path = some .refresh
    · exact h.reindex now hreindex.1 hreindex.2
    · refine h.read now ?_
      intro hmethod
      exact ⟨fun hroute => hpublish ⟨hmethod, hroute⟩, fun hroute => hreindex ⟨hmethod, hroute⟩⟩

theorem InStep.perform (h : n.InStep) {op : Operation} (hop : op.Obtained)
    (hroom : n.world.opinions.length < 2 ^ 63 - 1) : n.Advances (n.perform op) := by
  cases op with
  | submit s draft own now => exact h.submit hop hroom draft own now
  | refresh => exact h.refresh
  | statement s => exact h.statement hop
  | opinion o => exact h.opinion o
  | purge id => exact h.purge id
  | request now r => exact h.request hroom now r

end Operations

section Runs

variable {n : Node Tables} {op : Operation} {ops : List Operation}
variable {trust : SignerId → Float} {own : Option OwnKey}

theorem inStep_opened (trust : SignerId → Float) (own : Option OwnKey) :
    (opened trust own .empty).InStep := by
  have hstarted : opened trust own .empty =
      ⟨Tables.serviceWith trust own, .empty, .ofRecords Tables.empty.scanStatements⟩ :=
    refresh_eq ⟨trust, own, rfl⟩
  rw [hstarted]
  exact ⟨⟨trust, own, rfl⟩, Tables.sound_empty,
    Tables.holds_ofRecords Tables.sound_empty.keyed⟩

theorem NeverFull.start (h : n.NeverFull ops) : n.world.opinions.length < 2 ^ 63 - 1 :=
  h [] (List.nil_prefix)

theorem NeverFull.rest (h : n.NeverFull (op :: ops)) : (n.perform op).NeverFull ops :=
  fun done hdone => h (op :: done) (List.cons_prefix_cons.mpr ⟨rfl, hdone⟩)

theorem NeverFull.before (h : n.NeverFull ops) {done : List Operation} (hdone : done <+: ops) :
    n.NeverFull done :=
  fun earlier hearlier => h earlier (hearlier.trans hdone)

theorem InStep.work (h : n.InStep) (hops : ∀ op ∈ ops, op.Obtained) (hfull : n.NeverFull ops) :
    (n.work ops).InStep := by
  induction ops generalizing n with
  | nil => exact h
  | cons op ops ih =>
    have hstep := h.perform (hops op List.mem_cons_self) hfull.start
    exact ih hstep.inStep (fun op' hop' => hops op' (List.mem_cons_of_mem _ hop')) hfull.rest

theorem InStep.neverFull (h : n.InStep) (hops : ∀ op ∈ ops, op.Obtained)
    (hroom : n.world.opinions.length + ops.length < 2 ^ 63 - 1) : n.NeverFull ops := by
  intro done hdone
  induction done generalizing n ops with
  | nil =>
    change n.world.opinions.length < _
    omega
  | cons op done ih =>
    cases ops with
    | nil => cases List.prefix_nil.mp hdone
    | cons op' ops =>
      obtain ⟨rfl, hrest⟩ := List.cons_prefix_cons.mp hdone
      rw [List.length_cons] at hroom
      have hstep := h.perform (hops op List.mem_cons_self) (by omega)
      have hopinions := hstep.opinions
      exact ih hstep.inStep (fun op' hop' => hops op' (List.mem_cons_of_mem _ hop')) (by omega)
        hrest

/-- At every point of a run of a node that was started on a new database, the index has the answers
of an index of everything that the tables hold then. -/
theorem index_follows_tables (hops : ∀ op ∈ ops, op.Obtained)
    (hfull : (opened trust own .empty).NeverFull ops) :
    Database.blank.load = .ok .empty ∧ ∀ done, done <+: ops →
      ((opened trust own .empty).work done).index.AnswersAs
        (.ofRecords ((opened trust own .empty).work done).world.scanStatements) := by
  refine ⟨rfl, ?_⟩
  intro done hdone
  refine ((inStep_opened trust own).work ?_ (hfull.before hdone)).answersAs
  exact fun op hop => hops op (hdone.subset hop)

/-- The number of a network that is purged goes to a row without a name, which is no statement. -/
def specimenOperations : List Operation :=
  [.statement specimenDomain, .statement specimenNetwork, .purge ⟨2⟩,
    .statement { specimenDomain with name := "" },
    .opinion ⟨{ specimenBody with statementId := ⟨1⟩ }, []⟩, .opinion ⟨specimenBody, []⟩]

theorem specimenOperations_obtained : ∀ op ∈ specimenOperations, op.Obtained := by
  have hnameless : NewStatement.Obtained { specimenDomain with name := "" } :=
    ⟨specimenDomain_obtained.first, specimenDomain_obtained.second⟩
  simp [specimenOperations, Operation.Obtained, specimenDomain_obtained, specimenNetwork_obtained,
    hnameless]

theorem index_follows_tables_reused :
    let n := (opened (fun _ => 1) none .empty).work specimenOperations
    n.index.AnswersAs (.ofRecords n.world.scanStatements) ∧
      n.world.statements.map (·.id) = [⟨1⟩, ⟨2⟩] ∧ n.world.opinions.length = 2 ∧
      n.index.contains ⟨1⟩ ∧ n.index.contains ⟨2⟩ = false := by
  intro n
  have hfull : (opened (fun _ => 1) none .empty).NeverFull specimenOperations :=
    (inStep_opened _ _).neverFull specimenOperations_obtained (by decide)
  obtain ⟨-, hanswers⟩ := index_follows_tables specimenOperations_obtained hfull
  refine ⟨hanswers specimenOperations (List.prefix_refl _), ?_⟩
  exact ⟨by decide +kernel, by decide +kernel, by decide +kernel, by decide +kernel⟩

/-- In whatever state a run has left the node, a request to publish is answered as created, and then
it has added the reported opinion and at most the reported statement, which the index has; or it is
answered otherwise, and then nothing has changed. -/
theorem publication_all_or_nothing (hops : ∀ op ∈ ops, op.Obtained)
    (hfull : (opened trust own .empty).NeverFull ops) (now : Instant) {r : Request}
    (hmethod : r.method = .post) (hroute : Route.ofPath? r.path = some .statements) :
    let n := (opened trust own .empty).work ops
    let response := (n.handle now r).1
    let n' := (n.handle now r).2
    (∃ sub row, response = Service.published sub ∧
      n'.world.opinions = n.world.opinions ++ [row] ∧ row.toOpinion = .ok sub.opinion ∧
      sub.opinion.body.statementId = sub.statement.id ∧
      (n'.world.statements = n.world.statements ∨ ∃ added : Store.StatementRow,
        added.id = sub.statement.id ∧ n'.world.statements = n.world.statements ++ [added]) ∧
      n'.world.statement? sub.statement.id = some sub.statement ∧
      n'.index.contains sub.statement.id ∧
      n'.index.AnswersAs (.ofRecords n'.world.scanStatements)) ∨
    (response.status ≠ 201 ∧ n' = n) := by
  intro n response n'
  have h : n.InStep := (inStep_opened trust own).work hops hfull
  have hroom : n.world.opinions.length < 2 ^ 63 - 1 := hfull ops (List.prefix_refl ops)
  obtain ⟨refusal, hhandle, hstatus⟩ | ⟨s, sub, t', hhandle, -, hpublished, hread⟩ :=
    h.publication hroom now hmethod hroute
  · right
    have hresponse : response = refusal := congrArg Prod.fst hhandle
    exact ⟨hresponse ▸ hstatus, congrArg Prod.snd hhandle⟩
  · left
    have hafter : n' = { n with world := t', index := n.index.insert sub.statement } :=
      congrArg Prod.snd hhandle
    have hstep : n'.InStep := (h.publish hroom now hmethod hroute).inStep
    have hstored : n'.world.statement? sub.statement.id = some sub.statement := by
      rw [hafter, hread, Function.update_self]
    obtain ⟨row, hrow, hopinions⟩ := hpublished.opinions
    refine ⟨sub, row, congrArg Prod.fst hhandle, ?_, hrow, hpublished.refers, ?_, hstored, ?_,
      hstep.answersAs⟩
    · rw [hafter, hopinions]
    · rw [hafter]
      obtain ⟨-, hsame⟩ | ⟨-, hadded⟩ := hpublished.statements
      · exact .inl hsame
      · exact .inr ⟨_, rfl, hadded⟩
    · rw [hstep.index.contains_eq, hstored]
      rfl

def keyedAfter (ops : List Operation) : Node Tables :=
  (opened (fun _ => 1) (some ⟨specimenKey, ⟨1⟩⟩) .empty).work ops

def specimenRequest : Request where
  method := .post
  path := "/statements".toList
  query := []
  contentType := some "application/json"
  body := "\x7b\"name\": \"spammer\", \"entity_1\": \"example.com\"\x7d"

/-- The opinion takes the last place in the order of what the node says of the statement. -/
def specimenSaturation : List Operation :=
  [.statement specimenDomain,
    .opinion ⟨{ specimenBody with statementId := ⟨1⟩, serial := 0xffffffff }, []⟩]

theorem specimenSaturation_obtained : ∀ op ∈ specimenSaturation, op.Obtained := by
  simp [specimenSaturation, Operation.Obtained, specimenDomain_obtained]

theorem specimenRequest_route : Route.ofPath? specimenRequest.path = some .statements := by
  decide +kernel

theorem status_keyedAfter_nil :
    ((keyedAfter []).handle .epoch specimenRequest).1.status = 201 := by decide +kernel

theorem status_keyedAfter_saturation :
    ((keyedAfter specimenSaturation).handle .epoch specimenRequest).1.status = 503 := by
  decide +kernel

theorem publication_all_or_nothing_saturated :
    (∃ sub, ((keyedAfter []).handle .epoch specimenRequest).1 = Service.published sub ∧
      ((keyedAfter []).handle .epoch specimenRequest).2.index.contains sub.statement.id) ∧
    ((keyedAfter specimenSaturation).handle .epoch specimenRequest).1.status = 503 ∧
    ((keyedAfter specimenSaturation).handle .epoch specimenRequest).2 =
      keyedAfter specimenSaturation := by
  have hcreated := status_keyedAfter_nil
  have hrefused := status_keyedAfter_saturation
  unfold keyedAfter at hcreated hrefused ⊢
  constructor
  · have hfull : (opened (fun _ => 1) (some ⟨specimenKey, ⟨1⟩⟩) .empty).NeverFull [] :=
      (inStep_opened _ _).neverFull (List.forall_mem_nil _) (by decide)
    obtain ⟨sub, -, hresponse, -, -, -, -, -, hindexed, -⟩ | ⟨hstatus, -⟩ :=
      publication_all_or_nothing (List.forall_mem_nil _) hfull .epoch rfl specimenRequest_route
    · exact ⟨sub, hresponse, hindexed⟩
    · exact absurd hcreated hstatus
  · have hfull : (opened (fun _ => 1) (some ⟨specimenKey, ⟨1⟩⟩) .empty).NeverFull
        specimenSaturation :=
      (inStep_opened _ _).neverFull specimenSaturation_obtained (by decide)
    obtain ⟨sub, -, hresponse, -⟩ | ⟨-, hsame⟩ :=
      publication_all_or_nothing specimenSaturation_obtained hfull .epoch rfl specimenRequest_route
    · rw [hresponse] at hrefused
      cases hrefused
    · exact ⟨hrefused, hsame⟩

end Runs
end Node
end Reputation
