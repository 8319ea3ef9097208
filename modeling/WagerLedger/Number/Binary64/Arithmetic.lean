import WagerLedger.Number.Binary64

/-! # Arithmetic and order of doubles

The order is partial: nothing is below, above or equal to a double that is not a number. -/
namespace WagerLedger.Binary64

protected def neg : Binary64 → Binary64
  | .nan n => .nan !n
  | .infinity n => .infinity !n
  | .finite n m e h => .finite (!n) m e h

def coefficient (n : Bool) (m : Nat) : Int := if n then -(m : Int) else m

/-- The coefficients of two doubles over their smaller exponent. -/
def align (c e d f : Int) : Int × Int × Int :=
  let g := min e f
  (c * twoTo (e - g).toNat, d * twoTo (f - g).toNat, g)

protected def add : Binary64 → Binary64 → Binary64
  | .nan n, _ => .nan n
  | _, .nan n => .nan n
  | .infinity n, .infinity k => if n = k then .infinity n else .nan false
  | .infinity n, .finite .. => .infinity n
  | .finite .., .infinity n => .infinity n
  | .finite n m e _, .finite k l f _ =>
    let (c, d, g) := align (coefficient n m) e (coefficient k l) f
    roundScaled (n && k) (c + d) g

protected def sub (x y : Binary64) : Binary64 := x.add y.neg

protected def mul : Binary64 → Binary64 → Binary64
  | .nan n, _ => .nan n
  | _, .nan n => .nan n
  | .infinity n, .infinity k => .infinity (n != k)
  | .infinity n, .finite k l _ _ => if l = 0 then .nan false else .infinity (n != k)
  | .finite k l _ _, .infinity n => if l = 0 then .nan false else .infinity (n != k)
  | .finite n m e _, .finite k l f _ =>
    roundScaled (n != k) (coefficient (n != k) (m * l)) (e + f)

protected def div : Binary64 → Binary64 → Binary64
  | .nan n, _ => .nan n
  | _, .nan n => .nan n
  | .infinity _, .infinity _ => .nan false
  | .infinity n, .finite k _ _ _ => .infinity (n != k)
  | .finite n _ _ _, .infinity k => zero (n != k)
  | .finite n m e _, .finite k l f _ =>
    if l = 0 then if m = 0 then .nan false else .infinity (n != k)
    else
      let (a, b) := fraction m e
      let (c, d) := fraction l f
      round (n != k) (a * d) (b * c)

instance : Neg Binary64 := ⟨Binary64.neg⟩
instance : Add Binary64 := ⟨Binary64.add⟩
instance : Sub Binary64 := ⟨Binary64.sub⟩
instance : Mul Binary64 := ⟨Binary64.mul⟩
instance : Div Binary64 := ⟨Binary64.div⟩

/-- The order of two doubles, if they have one. -/
def compare? : Binary64 → Binary64 → Option Ordering
  | .nan _, _ => none
  | _, .nan _ => none
  | .infinity n, .infinity k => some (if n = k then .eq else if n then .lt else .gt)
  | .infinity n, .finite .. => some (if n then .lt else .gt)
  | .finite .., .infinity n => some (if n then .gt else .lt)
  | .finite n m e _, .finite k l f _ =>
    let (c, d, _) := align (coefficient n m) e (coefficient k l) f
    some (compare c d)

def less (x y : Binary64) : Bool := compare? x y == some .lt

def atMost (x y : Binary64) : Bool :=
  match compare? x y with
  | some .lt | some .eq => true
  | _ => false

/-- The smaller of two doubles; of a number and a non-number, the number. -/
def least (x y : Binary64) : Binary64 :=
  if x.isNan then y else if y.isNan || x.atMost y then x else y

def one : Binary64 := .finite false 4503599627370496 (-52) (by decide)

def inUnitInterval (x : Binary64) : Bool := (zero false).atMost x && x.atMost one

end WagerLedger.Binary64
