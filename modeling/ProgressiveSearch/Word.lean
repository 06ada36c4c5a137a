/-!
# Words

How many numbers the words of the common widths can hold, and how a counter in one of them goes on.
-/
namespace ProgressiveSearch.Word

/-- How many numbers a word of thirty-two bits can hold. -/
abbrev size32 : Nat := 4294967296

/-- How many numbers a word of sixty-three bits can hold; from here on the top bit of a word of
sixty-four bits is set. -/
abbrev size63 : Nat := 9223372036854775808

/-- How many numbers a word of sixty-four bits can hold. -/
abbrev size64 : Nat := 18446744073709551616

/-- The largest number in a word of thirty-two bits. -/
abbrev max32 : Nat := 4294967295

/-- The largest number in a word of sixty-three bits. -/
abbrev max63 : Nat := 9223372036854775807

/-- The largest number in a word of sixty-four bits. -/
abbrev max64 : Nat := 18446744073709551615

/-- What a counter of thirty-two bits shows after `n`: past the largest number it starts over. -/
def next32 (n : Nat) : Nat := (n + 1) % size32

/-- A counter shows how often it has gone on, up to full turns. -/
theorem next32_mod (n : Nat) : next32 (n % size32) = (n + 1) % size32 := Nat.mod_add_mod n size32 1

end ProgressiveSearch.Word
