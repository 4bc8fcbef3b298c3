set_option autoImplicit false

/-! Binary floating point numbers by their bits. A number is its word, so that the sign of
a zero and the payload of a NaN are kept; `agrees` is the comparison of IEEE 754, under which
no NaN equals anything and the two zeros are equal. -/

namespace EventQuery

structure Binary32 where
  bits : UInt32
  deriving DecidableEq, Repr, Inhabited

structure Binary64 where
  bits : UInt64
  deriving DecidableEq, Repr, Inhabited

namespace Binary32

/-- The number of a sign and the word without its sign bit. -/
def ofMagnitude (negative : Bool) (magnitude : Nat) : Binary32 :=
  ⟨UInt32.ofNat (if negative then 0x80000000 + magnitude else magnitude)⟩

def magnitude (number : Binary32) : UInt32 :=
  number.bits &&& 0x7fffffff

def isNaN (number : Binary32) : Bool :=
  0x7f800000 < number.magnitude

def isZero (number : Binary32) : Bool :=
  number.magnitude = 0

def agrees (left right : Binary32) : Bool :=
  !left.isNaN && !right.isNaN && (left.bits = right.bits || (left.isZero && right.isZero))

end Binary32

namespace Binary64

def ofMagnitude (negative : Bool) (magnitude : Nat) : Binary64 :=
  ⟨UInt64.ofNat (if negative then 0x8000000000000000 + magnitude else magnitude)⟩

def isNegative (number : Binary64) : Bool :=
  0x8000000000000000 ≤ number.bits

def magnitude (number : Binary64) : UInt64 :=
  number.bits &&& 0x7fffffffffffffff

def isNaN (number : Binary64) : Bool :=
  0x7ff0000000000000 < number.magnitude

def isZero (number : Binary64) : Bool :=
  number.magnitude = 0

def agrees (left right : Binary64) : Bool :=
  !left.isNaN && !right.isNaN && (left.bits = right.bits || (left.isZero && right.isZero))

end Binary64

end EventQuery
