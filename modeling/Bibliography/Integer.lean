set_option autoImplicit false

/-! # Integers of 64 bits

Styles and configurations compute and write with integers that fit 64 bits with a sign. -/

namespace Bibliography

/-- Whether an integer fits 64 bits with a sign. -/
def inRange (n : Int) : Bool :=
  decide (-9223372036854775808 ≤ n) && decide (n ≤ 9223372036854775807)

end Bibliography
