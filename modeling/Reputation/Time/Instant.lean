/-!
Points in time as whole seconds since 1970 and nanoseconds, over the years -262143 to 262142.
A leap second has no second of its own: it is the last second of its minute with a thousand
million nanoseconds or more.
-/
namespace Reputation

def Instant.minSeconds : Int := -8334601228800

def Instant.maxSeconds : Int := 8210266876799

structure Instant where
  seconds : Int
  nanos : Nat
  seconds_ge : Instant.minSeconds ≤ seconds
  seconds_le : seconds ≤ Instant.maxSeconds
  nanos_lt : nanos < 2000000000
  leap : 1000000000 ≤ nanos → seconds % 60 = 59
deriving DecidableEq

namespace Instant

def ofParts? (seconds : Int) (nanos : Nat) : Option Instant :=
  if h : minSeconds ≤ seconds ∧ seconds ≤ maxSeconds ∧ nanos < 2000000000 ∧
      (1000000000 ≤ nanos → seconds % 60 = 59) then
    some ⟨seconds, nanos, h.1, h.2.1, h.2.2.1, h.2.2.2⟩
  else none

def ofSeconds? (seconds : Int) : Option Instant :=
  ofParts? seconds 0

/-- The instant at the start of the same second. -/
def wholeSecond (t : Instant) : Instant :=
  { t with nanos := 0, nanos_lt := by omega, leap := by omega }

protected def le (a b : Instant) : Prop :=
  a.seconds < b.seconds ∨ a.seconds = b.seconds ∧ a.nanos ≤ b.nanos

instance : LE Instant := ⟨Instant.le⟩

instance (a b : Instant) : Decidable (a ≤ b) :=
  inferInstanceAs (Decidable (_ ∨ _))

/-- The second 1970-01-01T00:00:00. -/
def epoch : Instant :=
  ⟨0, 0, by decide, by decide, by decide, by decide⟩

instance : Inhabited Instant := ⟨epoch⟩

end Instant
end Reputation
