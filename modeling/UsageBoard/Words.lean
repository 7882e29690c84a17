/-!
# Words

The ends of the ranges of integers in words of a fixed number of bits, each the first number above
its range.
-/

namespace UsageBoard.Words

def int32End : Nat := 2147483648

def int64End : Nat := 9223372036854775808

def uint64End : Nat := 18446744073709551616

def int128End : Nat := 170141183460469231731687303715884105728

def uint128End : Nat := 340282366920938463463374607431768211456

def fitsInt64 (n : Int) : Bool := decide (-(int64End : Int) ≤ n) && decide (n < int64End)

theorem fitsInt64_iff (n : Int) :
    fitsInt64 n ↔ -9223372036854775808 ≤ n ∧ n < 9223372036854775808 := by
  rw [fitsInt64, Bool.and_eq_true, decide_eq_true_iff, decide_eq_true_iff]
  rfl

def int64? (n : Int) : Option Int64 := if fitsInt64 n then some (Int64.ofInt n) else none

theorem int64?_eq_some_iff {n : Int} {word : Int64} : int64? n = some word ↔ n = word.toInt := by
  have least := word.le_toInt
  have most := word.toInt_lt
  rw [int64?]
  split
  · rename_i fits
    obtain ⟨atLeast, atMost⟩ := (fitsInt64_iff n).mp fits
    rw [Option.some.injEq, ← Int64.toInt_inj, Int64.toInt_ofInt_of_le atLeast atMost]
  · rename_i outside
    rw [fitsInt64_iff] at outside
    exact iff_of_false nofun (by omega)

theorem isSome_int64?_iff {n : Int} : (int64? n).isSome ↔ fitsInt64 n := by
  rw [int64?]
  split <;> simp_all

end UsageBoard.Words
