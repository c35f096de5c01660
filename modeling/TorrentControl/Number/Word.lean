/-! # Signed 64-bit words

Counts and totals are signed 64-bit words. Arithmetic on them is exact in the integers and is then
clamped into the range of the word, so that sums and products saturate instead of wrapping. -/

namespace TorrentControl.Number.Word

def least : Int := -9223372036854775808

def greatest : Int := 9223372036854775807

/-- The word nearest to an integer. -/
def clamp (n : Int) : Int64 :=
  if n < least then Int64.minValue
  else if greatest < n then Int64.maxValue
  else Int64.ofInt n

/-- The word equal to an integer, if there is one. -/
def ofInt? (n : Int) : Option Int64 :=
  if least ≤ n ∧ n ≤ greatest then some (Int64.ofInt n) else none

def ofCount (n : Nat) : Int64 :=
  clamp n

def ofBool (b : Bool) : Int64 :=
  if b then 1 else 0

/-! ## Clamping in the integers -/

theorem toInt_clamp (n : Int) : (clamp n).toInt = max least (min n greatest) := by
  unfold clamp least greatest
  split
  · have : Int64.minValue.toInt = -9223372036854775808 := by decide
    omega
  · split
    · have : Int64.maxValue.toInt = 9223372036854775807 := by decide
      omega
    · rw [Int64.toInt_ofInt_of_le (by omega) (by omega)]
      omega

theorem clamp_toInt (w : Int64) : clamp w.toInt = w := by
  have low := w.le_toInt
  have high := w.toInt_lt
  apply Int64.toInt_inj.1
  rw [toInt_clamp]
  unfold least greatest
  omega

end TorrentControl.Number.Word
