/-!
Powers of two and of ten, and the limits of the 64-bit words.

The limits are written out, so that a comparison with one is a comparison with a numeral.
-/
namespace Dialogue

/-- The power of two with exponent `n`. -/
abbrev twoTo (n : Nat) : Nat := Nat.pow 2 n

/-- The power of ten with exponent `n`. -/
abbrev tenTo (n : Nat) : Nat := Nat.pow 10 n

/-- `2 ^ 64`: the unsigned 64-bit numbers are the naturals below it. -/
abbrev unsignedLimit : Nat := 18446744073709551616

/-- `2 ^ 63`: the signed 64-bit numbers reach from its negation to just below it. -/
abbrev signedLimit : Nat := 9223372036854775808

example : twoTo 64 = unsignedLimit ∧ twoTo 63 = signedLimit := by decide

end Dialogue
