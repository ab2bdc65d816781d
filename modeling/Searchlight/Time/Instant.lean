import Searchlight.Time.Calendar

/-!
# Instants

An instant is a count of seconds from 1970-01-01T00:00:00Z and a part of a second in
nanoseconds. A part of one second or more stands for a leap second and is only found at the
end of a minute.
-/

namespace Searchlight

/-- The parts that make an instant: years from -262143 to 262142, and a part of a second that
is below one except at the end of a minute. -/
def Instant.InRange (seconds : Int) (nanos : Nat) : Prop :=
  -8334601228800 ≤ seconds ∧ seconds ≤ 8210266876799 ∧ nanos < 2000000000 ∧
    (nanos < 1000000000 ∨ seconds % 60 = 59)

instance (seconds : Int) (nanos : Nat) : Decidable (Instant.InRange seconds nanos) :=
  inferInstanceAs (Decidable (_ ∧ _ ∧ _ ∧ _))

/-- An instant of universal time. -/
structure Instant where
  seconds : Int
  nanos : Nat
  inRange : Instant.InRange seconds nanos
  deriving DecidableEq

namespace Instant

/-- The instant with these parts, if there is one. -/
def of? (seconds : Int) (nanos : Nat) : Option Instant :=
  if h : InRange seconds nanos then some ⟨seconds, nanos, h⟩ else none

instance : Inhabited Instant := ⟨⟨0, 0, by decide⟩⟩

def date (t : Instant) : Date := Date.ofDays (t.seconds / 86400)

/-- The seconds since midnight, a leap second not counted. -/
def secondOfDay (t : Instant) : Nat := (t.seconds % 86400).toNat

end Instant

end Searchlight
