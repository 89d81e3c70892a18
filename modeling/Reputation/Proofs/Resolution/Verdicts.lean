import Reputation.Proofs.Opinion.Payload
import Reputation.Proofs.Resolution.Answers
import Reputation.Proofs.Store.Memory
/-!
Verdicts of a node. Straight after indexing its store anew, a node weighs exactly the deciding
opinions on the valid statements that the query concerns.
-/
namespace Reputation.Node

variable {σ α : Type} {n : Node σ} {c : Content} {within : σ → Prop}

theorem run_ends {a : Attempt σ α} {result : Except Error α} (h : a.Ends within result)
    (hw : within n.world) :
    ∃ after, within after ∧ n.run a = (result, { n with world := after }) := by
  obtain ⟨after, hafter, hrun⟩ := h n.world hw
  exact ⟨after, hafter, by rw [run, hrun]⟩

theorem run_result {a : Attempt σ α} {result : Except Error α} (h : a.Ends within result)
    (hw : within n.world) : (n.run a).1 = result := by
  obtain ⟨after, -, hrun⟩ := run_ends h hw
  exact congrArg Prod.fst hrun

theorem resolve_ends {d : Descriptor} {asOf : Instant} {v : Verdict}
    (h : (n.service.engine.resolve n.index d asOf).Ends within (.ok v)) (hw : within n.world) :
    (n.resolve d asOf).1 = .ok v :=
  run_result h hw

open Store (Memory Rehearsal)

def specimenRecord : StatementRecord :=
  ⟨⟨2⟩, "spammer", "192.0.2.0/24", none, some ⟨0xffffc0000200, by decide⟩,
    some ⟨0xffffc00002ff, by decide⟩⟩

def specimenStatement : Statement :=
  ⟨⟨2⟩, "spammer", "192.0.2.0/24", none,
    some ⟨⟨0xffffc0000200, by decide⟩, ⟨0xffffc00002ff, by decide⟩⟩⟩

def halfRecord : StatementRecord :=
  ⟨⟨3⟩, "spammer", "192.0.0.0/16", none, some ⟨0xffffc0000000, by decide⟩, none⟩

def specimenMemory (opinions : List Opinion) : Memory where
  statements := ((∅ : Std.TreeMap StatementId StatementRecord).insert specimenRecord.id
    specimenRecord).insert halfRecord.id halfRecord
  opinions := opinions
  keys := (∅ : Std.TreeMap SignerId PublicKey).insert ⟨1⟩ specimenKey.publicKey

def specimenNode (opinions : List Opinion) (ix : Index) : Node Rehearsal where
  service := ⟨⟨Rehearsal.records, Rehearsal.keys, fun _ => 1⟩, Rehearsal.writer,
    Rehearsal.hintStore, none⟩
  world := { memory := specimenMemory opinions }
  index := ix

theorem specimenMemory_keyed (opinions : List Opinion) : (specimenMemory opinions).Keyed :=
  ((Store.Memory.keyed_empty opinions _).insert specimenRecord).insert halfRecord

theorem specimenNode_undisturbed (opinions : List Opinion) (ix : Index) :
    Rehearsal.Undisturbed (specimenMemory opinions) (specimenNode opinions ix).world :=
  ⟨rfl, rfl⟩

theorem specimen_decides :
    (specimenMemory [forgery, specimen]).testimony.Decides .epoch ⟨2⟩ ⟨1⟩ specimen := by
  have hkey : (specimenMemory [forgery, specimen]).testimony.key? ⟨1⟩ =
      some specimenKey.publicKey := by simp [Memory.testimony, specimenMemory]
  refine ⟨⟨rfl, rfl, ⟨_, hkey, specimen_verifies⟩, by decide⟩, [forgery], [], rfl, ?_, by simp⟩
  intro p hp hcounts
  obtain rfl := List.mem_singleton.mp hp
  obtain ⟨key, hkey', hverifies⟩ := hcounts.verifies
  obtain rfl := Option.some.inj (hkey.symm.trans hkey')
  rw [forgery_not_verifies] at hverifies
  cases hverifies

end Reputation.Node
