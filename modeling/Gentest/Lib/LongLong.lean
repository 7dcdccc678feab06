import Mathlib.Data.Int.Bitwise

/-!
# Signed arithmetic of 64 bits

The operators of C++ on a signed 64-bit integer, kept as the integer it stands for.
Where the language leaves an operation undefined the result is `Fault.undefined`, and
`Fault.unknown` is for a computation that gives up by itself.
-/

namespace LongLong

inductive Fault
  | unknown
  | undefined
  deriving DecidableEq, Repr

def InRange (n : Int) : Prop := -2 ^ 63 ≤ n ∧ n < 2 ^ 63

instance (n : Int) : Decidable (InRange n) := inferInstanceAs (Decidable (_ ∧ _))

/-- A result outside of the range is undefined. -/
def checked (n : Int) : Except Fault Int :=
  if InRange n then .ok n else .error .undefined

def add (a b : Int) : Except Fault Int := checked (a + b)

def sub (a b : Int) : Except Fault Int := checked (a - b)

def mul (a b : Int) : Except Fault Int := checked (a * b)

def neg (a : Int) : Except Fault Int := checked (-a)

/-- Truncated division, by a number that is not zero. -/
def div (a b : Int) : Except Fault Int := checked (a.tdiv b)

/-- The remainder is undefined where the quotient is. -/
def rem (a b : Int) : Except Fault Int := do
  let _ ← checked (a.tdiv b)
  return a.tmod b

def IsShift (count : Int) : Prop := 0 ≤ count ∧ count < 64

instance (count : Int) : Decidable (IsShift count) := inferInstanceAs (Decidable (_ ∧ _))

def shiftLeft (a count : Int) : Except Fault Int :=
  if IsShift count then .ok ((a * 2 ^ count.toNat).bmod (2 ^ 64)) else .error .undefined

def shiftRight (a count : Int) : Except Fault Int :=
  if IsShift count then .ok (a / 2 ^ count.toNat) else .error .undefined

theorem checked_of_inRange {n : Int} (h : InRange n) : checked n = .ok n := if_pos h

theorem checked_eq_ok {n m : Int} : checked n = .ok m ↔ InRange n ∧ n = m := by
  unfold checked
  split <;> simp_all

theorem checked_ne_unknown (n : Int) : checked n ≠ .error .unknown := by
  unfold checked
  split <;> simp

end LongLong
