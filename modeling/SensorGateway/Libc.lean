/-
The C library under the program: the width of `long` and the doubles.

The program never computes with doubles.  It takes them from `strtod`, hands
them to SQLite and prints them with `%.6f`, so `Libc D` treats them as an
abstract type `D` with these conversions; which prefix of a string `strtod`
reads is fixed by the grammar in `Numerals.lean`.  `Binary64` is the instance
of the host target, with a 64-bit `long`.
-/
import SensorGateway.Binary64

class Libc (D : Type) where
  /-- `long` has 64 bits on the host target and 32 on the ARM one. -/
  longBits : ℕ
  longBits_eq : longBits = 32 ∨ longBits = 64
  /-- The value `strtod` returns for the text of a number. -/
  toDouble : Bytes → D
  /-- Whether `strtod` sets `errno` on the text of a number. -/
  rangeError : Bytes → Bool
  zero : D
  isNan : D → Bool
  /-- `%.6f`. -/
  fmt6 : D → Bytes
  length_fmt6 : ∀ d, (fmt6 d).length ≤ 317
  fmt6_bytes : ∀ d, ∀ c ∈ fmt6 d, c ∈ bytes "-.0123456789infa"
  fmt6_zero : fmt6 zero = bytes "0.000000"
  fmt6_nan : ∀ d, isNan d → fmt6 d = bytes "nan" ∨ fmt6 d = bytes "-nan"

namespace Binary64

def isNan : Binary64 → Bool
  | .nan _ => true
  | _ => false

theorem fmt6_nan (d : Binary64) (h : isNan d) :
    fmt6 d = bytes "nan" ∨ fmt6 d = bytes "-nan" := by
  cases d with
  | nan neg => cases neg <;> decide
  | inf neg => cases h
  | fin x => cases h

instance : Libc Binary64 where
  longBits := 64
  longBits_eq := .inr rfl
  toDouble t := (ofNumeral t).1
  rangeError t := (ofNumeral t).2
  zero := zero false
  isNan := isNan
  fmt6 := fmt6
  length_fmt6 := length_fmt6
  fmt6_bytes := fmt6_bytes
  fmt6_zero := by decide +kernel
  fmt6_nan := fmt6_nan

end Binary64
