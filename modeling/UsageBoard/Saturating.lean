import UsageBoard.Words

/-!
# Saturating arithmetic

Sums and differences of 64-bit integers stop at the ends of the range.
-/

namespace UsageBoard.Saturating

def clamp (n : Int) : Int64 :=
  if n < -(Words.int64End : Int) then Int64.minValue
  else if (Words.int64End : Int) ≤ n then Int64.maxValue
  else Int64.ofInt n

theorem int64End_eq : (Words.int64End : Int) = 9223372036854775808 := rfl

theorem toInt_clamp (n : Int) :
    (clamp n).toInt = max (-(Words.int64End : Int)) (min n (Words.int64End - 1)) := by
  unfold clamp
  rw [int64End_eq]
  by_cases low : n < -9223372036854775808
  · rw [if_pos low, Int64.toInt_minValue]
    omega
  · by_cases high : 9223372036854775808 ≤ n
    · rw [if_neg low, if_pos high, Int64.toInt_maxValue]
      omega
    · rw [if_neg low, if_neg high, Int64.toInt_ofInt_of_le (by omega) (by omega)]
      omega

def add (a b : Int64) : Int64 := clamp (a.toInt + b.toInt)

def sub (a b : Int64) : Int64 := clamp (a.toInt - b.toInt)

theorem toInt_sub (a b : Int64) :
    (sub a b).toInt = max (-(Words.int64End : Int)) (min (a.toInt - b.toInt) (Words.int64End - 1)) :=
  toInt_clamp _

end UsageBoard.Saturating
