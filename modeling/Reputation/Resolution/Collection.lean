import Reputation.Resolution.Collaborators
/-!
Collecting the opinions that count on a statement: at most one per signer, the one with the
greatest serial among those that are filed rightly, verify, and are not dated after the instant
asked for. Keys are looked up once and kept, also when there is none.
-/
namespace Reputation

abbrev KeyCache := Std.TreeMap SignerId (Option PublicKey)

/-- Of two opinions of one signer the greater serial counts, then the smaller signature. -/
def Opinion.supersedes (candidate current : Opinion) : Bool :=
  current.body.serial < candidate.body.serial ||
    (candidate.body.serial = current.body.serial && candidate.signature < current.signature)

/-- The opinions of each signer that nothing seen so far supersedes. -/
abbrev Latest := Std.TreeMap SignerId Opinion

def Latest.offer (latest : Latest) (o : Opinion) : Latest :=
  match latest[o.body.signerId]? with
  | some current => if o.supersedes current then latest.insert o.body.signerId o else latest
  | none => latest.insert o.body.signerId o

namespace Collection

variable {σ : Type}

def keyFor (keys : KeyStore σ) (cache : KeyCache) (signer : SignerId) :
    Attempt σ (Option PublicKey × KeyCache) :=
  match cache[signer]? with
  | some key => pure (key, cache)
  | none => do
    let key ← (keys.publicKeyFor signer).await
    pure (key, cache.insert signer key)

/-- Goes through fetched opinions. Misfiled ones are dropped before their key is asked for. -/
def gather (keys : KeyStore σ) (id : StatementId) (asOf : Instant) :
    List Opinion → KeyCache → Latest → Attempt σ (Latest × KeyCache)
  | [], cache, latest => pure (latest, cache)
  | o :: os, cache, latest =>
    if o.body.statementId ≠ id then gather keys id asOf os cache latest
    else do
      let (key, cache) ← keyFor keys cache o.body.signerId
      match key with
      | none => gather keys id asOf os cache latest
      | some key =>
        if o.verifies key && o.body.date ≤ asOf then
          gather keys id asOf os cache (latest.offer o)
        else gather keys id asOf os cache latest

/-- The opinions in effect on a statement, by signer. A signer whose last word is no longer valid
has none. -/
def collect (store : RecordStore σ) (keys : KeyStore σ) (cache : KeyCache) (id : StatementId)
    (asOf : Instant) : Attempt σ (List Opinion × KeyCache) := do
  let fetched ← (store.getOpinions id).await
  let (latest, cache) ← gather keys id asOf fetched cache ∅
  pure (latest.values.filter (·.body.valid), cache)

end Collection
end Reputation
