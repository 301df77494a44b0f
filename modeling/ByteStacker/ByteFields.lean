import Mathlib.Data.List.Basic

/-!
# Fields of a byte buffer

A packed record is written field by field into a buffer and read back field by
field from a byte string of unknown length.  Numbers are 32-bit little-endian
words.

* `put` writes bytes at an offset; `put_append` says what a buffer looks like
  after its fields were written from left to right;
* `fieldAt` and `wordAt` read at an offset and answer `none` where the string
  ends before the field does; `fieldAt_append` and `wordAt_append` read a field
  back at its place.
-/

namespace ByteFields

/-- The four bytes of a word, the least significant first. -/
def le32 (n : UInt32) : List UInt8 :=
  [UInt8.ofNat n.toNat, UInt8.ofNat (n.toNat / 256), UInt8.ofNat (n.toNat / 65536),
    UInt8.ofNat (n.toNat / 16777216)]

/-- The word that four bytes stand for. -/
def word32 : List UInt8 → UInt32
  | [a, b, c, d] =>
    UInt32.ofNat (a.toNat + 256 * b.toNat + 65536 * c.toNat + 16777216 * d.toNat)
  | _ => 0

/-- A 32-bit word has four bytes. -/
@[simp] theorem length_le32 (n : UInt32) : (le32 n).length = 4 := rfl

/-- A word is read back from its bytes. -/
@[simp] theorem word32_le32 (n : UInt32) : word32 (le32 n) = n := by
  have hlt := n.toNat_lt
  apply UInt32.toNat_inj.mp
  simp only [le32, word32, UInt8.toNat_ofNat', UInt32.toNat_ofNat', Nat.reducePow]
  omega

/-- `bytes` written over the buffer from offset `off` on. -/
def put (buf : List UInt8) (off : Nat) (bytes : List UInt8) : List UInt8 :=
  buf.take off ++ bytes ++ buf.drop (off + bytes.length)

/-- Writing behind the part already filled. -/
theorem put_append {pre rest bytes : List UInt8} {off : Nat} (hoff : off = pre.length) :
    put (pre ++ rest) off bytes = pre ++ bytes ++ rest.drop bytes.length := by
  subst hoff
  simp [put, List.drop_append]

/-- The `len` bytes at offset `off`, if the string has them. -/
def fieldAt (data : List UInt8) (off len : Nat) : Option (List UInt8) :=
  if off + len ≤ data.length then some ((data.drop off).take len) else none

/-- The word at offset `off`, if the string has it. -/
def wordAt (data : List UInt8) (off : Nat) : Option UInt32 :=
  (fieldAt data off 4).map word32

/-- The word at offset `off` of a string that has it. -/
def word (data : List UInt8) (off : Nat) : UInt32 := word32 ((data.drop off).take 4)

/-- A field or a word inside the data is read whole. -/
theorem fieldAt_of_le {data : List UInt8} {off len : Nat} (h : off + len ≤ data.length) :
    fieldAt data off len = some ((data.drop off).take len) := if_pos h

theorem wordAt_of_le {data : List UInt8} {off : Nat} (h : off + 4 ≤ data.length) :
    wordAt data off = some (word data off) := by
  rw [wordAt, fieldAt_of_le h]
  rfl

/-- **A field is read back at its place.** -/
theorem fieldAt_append (pre bytes rest : List UInt8) {off len : Nat} (hoff : off = pre.length)
    (hlen : len = bytes.length) : fieldAt (pre ++ (bytes ++ rest)) off len = some bytes := by
  subst hoff hlen
  simp [fieldAt]

/-- A word is read back at the offset where it was put. -/
theorem wordAt_append (pre : List UInt8) (n : UInt32) (rest : List UInt8) {off : Nat}
    (hoff : off = pre.length) : wordAt (pre ++ (le32 n ++ rest)) off = some n := by
  rw [wordAt, fieldAt_append pre (le32 n) rest hoff (length_le32 n).symm]
  simp

end ByteFields
