/-
# Quantities

A time limit, a latency or a rate is a number, whole or not.  The two are compared exactly, and
whole numbers stay exact as long as no real number is involved.
-/
import Keyscope.Number.Binary64

namespace Keyscope

/-- A whole number or a real one. -/
inductive Quantity where
  | whole (n : Int)
  | real (x : Binary64)
  deriving DecidableEq, Repr

namespace Quantity

instance : OfNat Quantity n := ⟨whole n⟩

/-- Exact order of a whole number and a number. -/
def wholeLt (n : Int) : Binary64 → Bool
  | .nan => false
  | .infinite s => !s
  | .finite s m q => Binary64.scaledLt n 0 (if s then -(m : Int) else m) q

/-- Exact order of a number and a whole number. -/
def ltWhole (x : Binary64) (n : Int) : Bool :=
  match x with
  | .nan => false
  | .infinite s => s
  | .finite s m q => Binary64.scaledLt (if s then -(m : Int) else m) q n 0

/-- Exact order; a NaN is neither smaller nor larger than anything. -/
def lt : Quantity → Quantity → Bool
  | whole m, whole n => decide (m < n)
  | whole m, real y => wholeLt m y
  | real x, whole n => ltWhole x n
  | real x, real y => x.lt y

def isNaN : Quantity → Bool
  | real .nan => true
  | _ => false

/-- Smaller or equal, exactly; never so with a NaN. -/
def le (a b : Quantity) : Bool := !a.isNaN && !b.isNaN && !lt b a

/-- Whether two quantities are the same number. -/
def same (a b : Quantity) : Bool := a.le b && b.le a

/-- The quantity as a real number, if it is in the range of these. -/
def real? : Quantity → Option Binary64
  | real x => some x
  | whole n =>
    match Binary64.ofInt n with
    | .infinite _ => none
    | x => some x

/-- The sum: exact for whole numbers, and otherwise that of real numbers. -/
def add? : Quantity → Quantity → Option Quantity
  | whole m, whole n => some (whole (m + n))
  | a, b => do return real ((← a.real?) + (← b.real?))

/-- The difference: exact for whole numbers, and otherwise that of real numbers. -/
def sub? : Quantity → Quantity → Option Quantity
  | whole m, whole n => some (whole (m - n))
  | a, b => do return real ((← a.real?) - (← b.real?))

/-- The quantity divided by a number of things, if the result is in the range of real numbers. -/
def over? (n : Nat) : Quantity → Option Binary64
  | real x => some (x / Binary64.ofInt n)
  | whole m =>
    match Binary64.ofRatio (m < 0) m.natAbs n with
    | .infinite _ => none
    | x => some x

end Quantity

end Keyscope
