import DotFormat.Json.Value

/-!
This module contains amounts of padding. An amount is a number, or a truth value that counts as zero
or one and is handed on as it was given.
-/

namespace DotFormat

inductive Amount (number : Type) where
  | number (n : number)
  | flag (b : Bool)
  deriving DecidableEq, Repr

inductive AmountError where
  | negative (units : Int)
  /-- The value cannot be compared with zero. -/
  | notNumber
  deriving DecidableEq, Repr

def AmountError.message? (field : String) : AmountError → Option String
  | negative units => some (field ++ " must be >= 0, got " ++ Text.numeral units)
  | notNumber => none

namespace Amount

def map (f : α → β) : Amount α → Amount β
  | number n => number (f n)
  | flag b => flag b

def value : Amount Int → Int
  | number n => n
  | flag b => b.toNat

def toJson : Amount Int → Json
  | number n => .int n
  | flag b => .bool b

def ofNat (amount : Amount Nat) : Amount Int :=
  amount.map Int.ofNat

def ofJson : Json → Except AmountError (Amount Nat)
  | .int (.ofNat n) => .ok (number n)
  | .int (.negSucc n) => .error (.negative (.negSucc n))
  | .bool b => .ok (flag b)
  | _ => .error .notNumber

theorem ofJson_toJson (amount : Amount Nat) : ofJson amount.ofNat.toJson = .ok amount := by
  cases amount <;> rfl

theorem ofJson_int_eq_error_iff {n : Int} {e : AmountError} :
    ofJson (.int n) = .error e ↔ n < 0 ∧ e = .negative n := by
  cases n with
  | ofNat n =>
    simp only [ofJson, reduceCtorEq, false_iff, not_and]
    intro h
    exact absurd h (Int.not_lt.2 (Int.natCast_nonneg n))
  | negSucc n => simp [ofJson, eq_comm, Int.negSucc_lt_zero]

end Amount

end DotFormat
