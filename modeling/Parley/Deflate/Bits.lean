import Parley.Bytes
/-
  This file gives bits and their order: numbers in bits from
  either end, and bits packed into bytes.

  Key definitions include:
    * `bitsHighFirst`
    * `bitsLowFirst`
    * `packBits`
    * `packWhole`
-/

namespace Parley.Deflate

/- A number in `len` bits, the highest first. -/
def bitsHighFirst
    (value len : Nat) : List Bool :=
  (List.range len).map fun i => value.testBit (len - 1 - i)

/- A number in `len` bits, the lowest first. -/
def bitsLowFirst
    (value len : Nat) : List Bool :=
  (List.range len).map fun i => value.testBit i

/- The byte of up to eight bits, the lowest first. -/
def byteOfBits
    (bits : List Bool) : UInt8 :=
  UInt8.ofNat (bits.foldr (fun b n => 2 * n + b.toNat) 0)

/- Bits as bytes; the last byte is filled up with zeros. -/
def packBits : List Bool → Bytes
  | [] => []
  | b :: bits => byteOfBits ((b :: bits).take 8) :: packBits (bits.drop 7)
termination_by bits => bits.length
decreasing_by simp only [List.length_drop, List.length_cons]; omega

/-
  The whole bytes that bits make, and the bits that are left
  over.
-/
def packWhole
    (bits : List Bool) : Bytes × List Bool :=
  let whole := 8 * (bits.length / 8)
  (packBits (bits.take whole), bits.drop whole)

/- The zeros that fill up the last byte of so many bits. -/
def padding
    (count : Nat) : List Bool :=
  List.replicate ((8 - count % 8) % 8) false

end Parley.Deflate
