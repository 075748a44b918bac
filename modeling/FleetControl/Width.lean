/-!
# Widths

The least and the greatest numbers that fit the widths in which the service keeps its numbers.
-/

namespace FleetControl.Width

/-- The least signed number of 32 bits. -/
def least32 : Int := -2147483648

/-- The greatest signed number of 32 bits. -/
def greatest32 : Int := 2147483647

/-- The least signed number of 64 bits. -/
def least64 : Int := -9223372036854775808

/-- The greatest signed number of 64 bits. -/
def greatest64 : Int := 9223372036854775807

/-- The greatest unsigned number of 16 bits. -/
def unsigned16 : Int := 65535

/-- The greatest unsigned number of 32 bits. -/
def unsigned32 : Int := 4294967295

/-- The greatest unsigned number of 64 bits. -/
def unsigned64 : Int := 18446744073709551615

/-- One more, in 32 bits: after the greatest number comes the least. -/
def successor32 (n : Int) : Int := Int.bmod (n + 1) 4294967296

end FleetControl.Width
