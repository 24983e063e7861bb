/-
# `Xen2mx.Segments.Checksum` — the checksum of the segments of a request

`omx_checksum_segments` goes through the segments and through the bytes of each; what it keeps is
one word of 16 bits.  A byte goes in at the top of the word, and then the word is shifted eight
times: what leaves at the top brings the polynomial in.  The last segment may be taken in part.

The word only depends on the bytes, in their order, and not on which segment each of them is in.

**Proved here.**

    the checksum is the one of the bytes                      (`checksumLoop_eq`)
    the same bytes in other segments, or in one buffer, have
    the same checksum                                         (`checksumSegments_eq`)
-/
import Xen2mx.Segments.Vector

namespace Xen2mx.Segments

/-- A byte of memory. -/
abbrev Byte := BitVec 8

/-- The loop over `i`: `crc` is an `int` as long as it is shifted, and only its low bits are kept. -/
def crcLoop : (n : ℕ) → (crc : BitVec 16) → BitVec 16
  | 0, crc => crc
  | n + 1, crc => crcLoop n (if crc &&& 0x8000 ≠ 0 then (crc <<< 1) ^^^ 0x1021 else crc <<< 1)

/-- A round of the loop over `j`.  A `char` has a sign, which is in the bits that are not kept. -/
def crcByte (crc : BitVec 16) (byte : Byte) : BitVec 16 :=
  crcLoop 8 (crc ^^^ (byte.signExtend 32 <<< 8).setWidth 16)

/-- The loop over the segments, from a segment on. -/
def checksumLoop : (segarray : ReqSegs Byte) → (length : ℕ) → (crc : BitVec 16) → BitVec 16
  | [], _, crc => crc
  | _ :: _, 0, crc => crc
  | cseg :: segarray, length + 1, crc =>
      let chunk := min cseg.length (length + 1)
      checksumLoop segarray (length + 1 - chunk) ((cseg.take chunk).foldl crcByte crc)

/-- `omx_checksum_segments`. -/
def checksumSegments (reqsegs : ReqSegs Byte) (length : ℕ) : BitVec 16 :=
  checksumLoop reqsegs length 0

/-- What remains in the word after the segments is what the bytes leave there. -/
theorem checksumLoop_eq (segs : ReqSegs Byte) (length : ℕ) (crc : BitVec 16) :
    checksumLoop segs length crc = (segs.flatten.take length).foldl crcByte crc := by
  induction segs generalizing length crc with
  | nil =>
      rw [List.flatten_nil, List.take_nil]
      rfl
  | cons cseg segs ih =>
      cases length with
      | zero => rfl
      | succ n =>
          have htake : cseg.take (min cseg.length (n + 1)) = cseg.take (n + 1) := by
            rw [List.take_eq_take_iff]
            omega
          have hrest : n + 1 - min cseg.length (n + 1) = n + 1 - cseg.length := by omega
          rw [checksumLoop, ih, List.flatten_cons, List.take_append, List.foldl_append, htake, hrest]

/-- Vectors that hold the same bytes have the same checksum, and it is the one of these bytes in a
single buffer.  Nothing is asked of the length: all bytes are taken if it is larger. -/
theorem checksumSegments_eq (segs segs' : ReqSegs Byte) (length : ℕ)
    (hsame : segs.flatten = segs'.flatten) :
    checksumSegments segs length = checksumSegments segs' length ∧
      checksumSegments segs length = checksumSegments [segs.flatten.take length] length := by
  have hsingle : [segs.flatten.take length].flatten.take length = segs.flatten.take length := by
    rw [List.flatten_singleton, List.take_take, Nat.min_self]
  constructor
  · rw [checksumSegments, checksumSegments, checksumLoop_eq, checksumLoop_eq, hsame]
  · rw [checksumSegments, checksumSegments, checksumLoop_eq, checksumLoop_eq, hsingle]

/-- Three segments, one of them empty, and two others of which the last is taken in part. -/
theorem checksumSegments_eq_parts :
    checksumSegments [[0x31, 0x32], [], [0x33, 0xff]] 3 =
        checksumSegments [[0x31], [0x32, 0x33, 0xff]] 3 ∧
      checksumSegments [[0x31, 0x32], [], [0x33, 0xff]] 3 = checksumSegments [[0x31, 0x32, 0x33]] 3 :=
  checksumSegments_eq [[0x31, 0x32], [], [0x33, 0xff]] [[0x31], [0x32, 0x33, 0xff]] 3 rfl

/-- The check value of this polynomial, for "123456789". -/
example : checksumSegments [[0x31, 0x32, 0x33], [], [0x34, 0x35, 0x36, 0x37, 0x38, 0x39, 0x7f]] 9 =
    0x31c3 := by decide +kernel

end Xen2mx.Segments
