/-
# Binary floating point numbers, 64 bits wide

A finite number is `± m · 2 ^ q` with `m < 2 ^ 53` and `-1074 ≤ q ≤ 971`.  Every operation
computes exactly and rounds once (`ofRatio`), so a fact about an operation is a fact about
whole numbers.  The form is canonical: `2 ^ 52 ≤ m` unless `q = -1074`.
-/

namespace Keyscope

/-! ## 1. Scales and quotients -/

/-- `2 ^ e`, and one for a negative exponent: a number with an exponent of either sign is a quotient
of two such powers. -/
def twoTo (e : Int) : Nat := Nat.pow 2 e.toNat

/-- `10 ^ e`, and one for a negative exponent. -/
def tenTo (e : Int) : Nat := Nat.pow 10 e.toNat

/-- The whole number nearest to `n / d`; a half goes to the even neighbour.  Every rounding in this
library is this one. -/
def roundDiv (n d : Nat) : Nat :=
  let k := n / d
  let r := n % d
  if d < 2 * r ∨ (2 * r = d ∧ k % 2 = 1) then k + 1 else k

theorem roundDiv_mul {d : Nat} (hd : 0 < d) (k : Nat) : roundDiv (k * d) d = k := by
  simp only [roundDiv, Nat.mul_div_cancel _ hd, Nat.mul_mod_left]
  rw [if_neg (by omega)]

theorem roundDiv_le (n d : Nat) : roundDiv n d ≤ n / d + 1 := by
  simp only [roundDiv]
  split <;> omega

/-- A binary floating point number of 64 bits.  All NaNs are one. -/
inductive Binary64 where
  | nan
  | infinite (negative : Bool)
  | finite (negative : Bool) (m : Nat) (q : Int)
  deriving DecidableEq, Repr, Inhabited

namespace Binary64

/-! ## 2. Rounding to the format -/

/-- The exponent `e` with `2 ^ e ≤ n / d < 2 ^ (e + 1)`, for positive `n` and `d`. -/
def binaryExponent (n d : Nat) : Int :=
  let e : Int := (n.log2 : Int) - d.log2
  let reaches := if 0 ≤ e then d * twoTo e ≤ n else d ≤ n * twoTo (-e)
  if reaches then e else e - 1

/-- The number nearest to `± n / d`, ties to the even significand; beyond the largest finite
number, infinity. -/
def ofRatio (negative : Bool) (n d : Nat) : Binary64 :=
  if n = 0 then finite negative 0 (-1074)
  else
    let q : Int := max (binaryExponent n d - 52) (-1074)
    let m := if 0 ≤ q then roundDiv n (d * twoTo q) else roundDiv (n * twoTo (-q)) d
    let (m, q) := if m = twoTo 53 then (twoTo 52, q + 1) else (m, q)
    if 971 < q then infinite negative else finite negative m q

/-- The number nearest to `± m · 2 ^ q`. -/
def ofScaled (negative : Bool) (m : Nat) (q : Int) : Binary64 :=
  if 0 ≤ q then ofRatio negative (m * twoTo q) 1 else ofRatio negative m (twoTo (-q))

/-- The number nearest to `± m · 10 ^ e`. -/
def ofDecimal (negative : Bool) (m : Nat) (e : Int) : Binary64 :=
  if 0 ≤ e then ofRatio negative (m * tenTo e) 1 else ofRatio negative m (tenTo (-e))

/-- The number nearest to a whole number. -/
def ofInt (n : Int) : Binary64 := ofRatio (n < 0) n.natAbs 1

/-- Zero with a plus sign. -/
def zero : Binary64 := finite false 0 (-1074)

instance : OfNat Binary64 n := ⟨ofInt n⟩

/-! ## 3. Parts of a number -/

def isNaN : Binary64 → Bool
  | nan => true
  | _ => false

def isFinite : Binary64 → Bool
  | finite .. => true
  | _ => false

/-- `m · 2 ^ q` as numerator and denominator. -/
def ratio (m : Nat) (q : Int) : Nat × Nat :=
  if 0 ≤ q then (m * twoTo q, 1) else (m, twoTo (-q))

/-- The whole number next to it towards zero, for a finite number. -/
def truncate? : Binary64 → Option Int
  | finite negative m q =>
    let (n, d) := ratio m q
    some (if negative then -((n / d : Nat) : Int) else (n / d : Nat))
  | _ => none

/-! ## 4. Arithmetic -/

/-- `a · 2 ^ p + b · 2 ^ q` at the smaller of the two exponents. -/
def addScaled (a p b q : Int) : Int × Int :=
  let r := min p q
  (a * twoTo (p - r) + b * twoTo (q - r), r)

def neg : Binary64 → Binary64
  | nan => nan
  | infinite s => infinite (!s)
  | finite s m q => finite (!s) m q

/-- The magnitude. -/
def abs : Binary64 → Binary64
  | nan => nan
  | infinite _ => infinite false
  | finite _ m q => finite false m q

/-- The rounded sum.  A sum of exactly zero is `-0` only of two such zeros. -/
def add : Binary64 → Binary64 → Binary64
  | nan, _ => nan
  | _, nan => nan
  | infinite s, infinite t => if s = t then infinite s else nan
  | infinite s, finite .. => infinite s
  | finite .., infinite t => infinite t
  | finite s m p, finite t n q =>
    let (sum, r) := addScaled (if s then -(m : Int) else m) p (if t then -(n : Int) else n) q
    if sum = 0 then finite (s && t && m = 0 && n = 0) 0 (-1074)
    else ofScaled (sum < 0) sum.natAbs r

def sub (a b : Binary64) : Binary64 := add a (neg b)

/-- The rounded product. -/
def mul : Binary64 → Binary64 → Binary64
  | nan, _ => nan
  | _, nan => nan
  | infinite s, infinite t => infinite (s != t)
  | infinite s, finite t n _ => if n = 0 then nan else infinite (s != t)
  | finite s m _, infinite t => if m = 0 then nan else infinite (s != t)
  | finite s m p, finite t n q => ofScaled (s != t) (m * n) (p + q)

/-- The rounded quotient; a number divided by zero is not a number here. -/
def div : Binary64 → Binary64 → Binary64
  | nan, _ => nan
  | _, nan => nan
  | infinite _, infinite _ => nan
  | infinite s, finite t _ _ => infinite (s != t)
  | finite s _ _, infinite t => finite (s != t) 0 (-1074)
  | finite s m p, finite t n q =>
    if n = 0 then nan
    else
      let (a, b) := ratio m p
      let (c, d) := ratio n q
      ofRatio (s != t) (a * d) (b * c)

instance : Add Binary64 := ⟨add⟩
instance : Sub Binary64 := ⟨sub⟩
instance : Mul Binary64 := ⟨mul⟩
instance : Div Binary64 := ⟨div⟩
instance : Neg Binary64 := ⟨neg⟩

/-! ## 5. Order -/

/-- Exact comparison of `a · 2 ^ p` and `b · 2 ^ q`. -/
def scaledLt (a p b q : Int) : Bool :=
  let r := min p q
  a * twoTo (p - r) < b * twoTo (q - r)

/-- Whether the first number is the smaller one; never so with a NaN. -/
def lt : Binary64 → Binary64 → Bool
  | nan, _ => false
  | _, nan => false
  | infinite s, infinite t => s && !t
  | infinite s, finite .. => s
  | finite .., infinite t => !t
  | finite s m p, finite t n q =>
    scaledLt (if s then -(m : Int) else m) p (if t then -(n : Int) else n) q

/-- Whether the numbers are equal as numbers: the two zeros are, a NaN and itself are not. -/
def same : Binary64 → Binary64 → Bool
  | nan, _ => false
  | _, nan => false
  | a, b => !lt a b && !lt b a

/-- Smaller or equal as numbers. -/
def le (a b : Binary64) : Bool := lt a b || same a b

end Binary64

end Keyscope
