import Reputation.Text.Numeral
/-!
Identifiers of records: 64-bit numbers, one type per kind of record. A signer is described by a
statement and shares its number, but passing from one to the other is always explicit.
-/
namespace Reputation

structure StatementId where
  val : Int64
deriving DecidableEq, Inhabited

structure SignerId where
  val : Int64
deriving DecidableEq, Inhabited

structure OpinionId where
  val : Int64
deriving DecidableEq, Inhabited

def StatementId.text (id : StatementId) : String := Text.integerText id.val.toInt

def SignerId.text (id : SignerId) : String := Text.integerText id.val.toInt

def OpinionId.text (id : OpinionId) : String := Text.integerText id.val.toInt

/-- The statement that describes the signer. -/
def SignerId.statement (id : SignerId) : StatementId := ⟨id.val⟩

def StatementId.signer (id : StatementId) : SignerId := ⟨id.val⟩

instance : Ord StatementId := ⟨fun a b => compare a.val b.val⟩

instance : Ord SignerId := ⟨fun a b => compare a.val b.val⟩

instance : LE StatementId := ⟨fun a b => a.val ≤ b.val⟩

instance : LT StatementId := ⟨fun a b => a.val < b.val⟩

instance : LE SignerId := ⟨fun a b => a.val ≤ b.val⟩

instance : LT SignerId := ⟨fun a b => a.val < b.val⟩

instance (a b : StatementId) : Decidable (a ≤ b) := inferInstanceAs (Decidable (a.val ≤ b.val))

instance (a b : StatementId) : Decidable (a < b) := inferInstanceAs (Decidable (a.val < b.val))

instance (a b : SignerId) : Decidable (a ≤ b) := inferInstanceAs (Decidable (a.val ≤ b.val))

instance (a b : SignerId) : Decidable (a < b) := inferInstanceAs (Decidable (a.val < b.val))

theorem StatementId.lt_iff (a b : StatementId) : a < b ↔ a.val.toInt < b.val.toInt :=
  Int64.lt_iff_toInt_lt

theorem SignerId.lt_iff (a b : SignerId) : a < b ↔ a.val.toInt < b.val.toInt :=
  Int64.lt_iff_toInt_lt

theorem SignerId.le_iff (a b : SignerId) : a ≤ b ↔ a.val.toInt ≤ b.val.toInt :=
  Int64.le_iff_toInt_le

theorem StatementId.eq_iff (a b : StatementId) : a = b ↔ a.val.toInt = b.val.toInt := by
  rw [Int64.toInt_inj]
  cases a; cases b
  simp

theorem SignerId.eq_iff (a b : SignerId) : a = b ↔ a.val.toInt = b.val.toInt := by
  rw [Int64.toInt_inj]
  cases a; cases b
  simp

theorem StatementId.compare_eq (a b : StatementId) : compare a b = compare a.val b.val := rfl

theorem SignerId.compare_eq (a b : SignerId) : compare a b = compare a.val b.val := rfl

instance : Std.TransOrd StatementId where
  eq_swap {a b} := Std.OrientedOrd.eq_swap (a := a.val) (b := b.val)
  isLE_trans {a b c} := Std.TransOrd.isLE_trans (a := a.val) (b := b.val) (c := c.val)

instance : Std.TransOrd SignerId where
  eq_swap {a b} := Std.OrientedOrd.eq_swap (a := a.val) (b := b.val)
  isLE_trans {a b c} := Std.TransOrd.isLE_trans (a := a.val) (b := b.val) (c := c.val)

instance : Std.LawfulEqOrd StatementId where
  eq_of_compare {a b} h := by
    have : a.val = b.val := Std.LawfulEqOrd.eq_of_compare h
    cases a; cases b; simp_all

instance : Std.LawfulEqOrd SignerId where
  eq_of_compare {a b} h := by
    have : a.val = b.val := Std.LawfulEqOrd.eq_of_compare h
    cases a; cases b; simp_all

end Reputation
