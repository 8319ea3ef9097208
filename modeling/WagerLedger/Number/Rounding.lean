/-! # Rounded quotients

Powers of ten and two, and the three ways in which this library takes a quotient to an
integer: half to the even neighbour, half away from zero, and (core's `Int.tdiv`)
toward zero. -/
namespace WagerLedger

def tenTo (k : Nat) : Nat := Nat.pow 10 k

def twoTo (k : Nat) : Nat := Nat.pow 2 k

theorem tenTo_pos (k : Nat) : 0 < tenTo k := Nat.pow_pos (by decide)

theorem twoTo_pos (k : Nat) : 0 < twoTo k := Nat.pow_pos (by decide)

theorem tenTo_succ (k : Nat) : tenTo (k + 1) = tenTo k * 10 := rfl

/-- The integer nearest to `a / b`, of two the even one, for a positive `b`. -/
def roundEven (a b : Nat) : Nat :=
  let q := a / b
  let r := a % b
  if 2 * r < b then q else if b < 2 * r then q + 1 else q + q % 2

/-- The integer nearest to `a / b`, of two the larger one, for a positive `b`. -/
def roundUp (a b : Nat) : Nat :=
  (2 * a + b) / (2 * b)

/-- A half goes to the even neighbour on both sides of zero. -/
def roundEvenInt (a : Int) (b : Nat) : Int :=
  a.sign * roundEven a.natAbs b

/-- A half goes away from zero on both sides. -/
def roundAwayInt (a : Int) (b : Nat) : Int :=
  a.sign * roundUp a.natAbs b

theorem roundEven_one (a : Nat) : roundEven a 1 = a := by
  simp [roundEven, Nat.mod_one]

theorem roundEvenInt_one (a : Int) : roundEvenInt a 1 = a := by
  rw [roundEvenInt, roundEven_one, Int.sign_mul_natAbs]

end WagerLedger
