/-!
# Words of 64 bits

* `Word64.fits`, `Word64.fitsUnsigned`: the numbers that a word holds, with a sign and without.
* `Word64.wrap`: the signed number in the last 64 bits of a number.
-/

namespace ScriptSplit.Word64

/-- The number of different words. -/
def count : Nat := 18446744073709551616

/-- The least signed number. -/
def least : Int := -9223372036854775808

/-- The greatest signed number. -/
def greatest : Int := 9223372036854775807

/-- A word with a sign holds the number. -/
def fits (n : Int) : Bool := least ≤ n && n ≤ greatest

/-- A word without a sign holds the number. -/
def fitsUnsigned (n : Int) : Bool := 0 ≤ n && n < count

/-- The signed number in the last 64 bits of a number. -/
def wrap (n : Int) : Int := n.bmod count

/-- The nearest number that a word with a sign holds. -/
def clamp (n : Int) : Int := max least (min greatest n)

end ScriptSplit.Word64
