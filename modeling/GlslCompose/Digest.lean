/-
`Digest.lean` -- a 64-bit digest of text.

The digest is BLAKE2b with a digest length of eight bytes and no key, taken of the
UTF-8 form of the text and read as a number with the first byte highest. It stands
for the text wherever comparing whole texts would be too long, so two texts with
the same characters in a different order must not share one; a plain sum of the
characters would not do.
-/
import GlslCompose.Text.Utf8

set_option autoImplicit false

namespace GlslCompose.Digest

/-- The words that the state starts from: the fractional parts of the square roots of the first
eight primes. -/
def startWords : Vector UInt64 8 := #v[
  0x6a09e667f3bcc908, 0xbb67ae8584caa73b, 0x3c6ef372fe94f82b, 0xa54ff53a5f1d36f1,
  0x510e527fade682d1, 0x9b05688c2b3e6c1f, 0x1f83d9abfb41bd6b, 0x5be0cd19137e2179]

/-- The order in which each round takes the words of a block. -/
def schedule : List (Vector (Fin 16) 16) := [
  #v[0, 1, 2, 3, 4, 5, 6, 7, 8, 9, 10, 11, 12, 13, 14, 15],
  #v[14, 10, 4, 8, 9, 15, 13, 6, 1, 12, 0, 2, 11, 7, 5, 3],
  #v[11, 8, 12, 0, 5, 2, 15, 13, 10, 14, 3, 6, 7, 1, 9, 4],
  #v[7, 9, 3, 1, 13, 12, 11, 14, 2, 6, 5, 10, 4, 0, 15, 8],
  #v[9, 0, 5, 7, 2, 4, 10, 15, 14, 1, 11, 12, 6, 8, 3, 13],
  #v[2, 12, 6, 10, 0, 11, 8, 3, 4, 13, 7, 5, 15, 14, 1, 9],
  #v[12, 5, 1, 15, 14, 13, 4, 10, 0, 7, 6, 3, 9, 2, 8, 11],
  #v[13, 11, 7, 14, 12, 1, 3, 9, 5, 0, 15, 4, 8, 6, 2, 10],
  #v[6, 15, 14, 9, 11, 3, 0, 8, 12, 2, 13, 7, 1, 4, 10, 5],
  #v[10, 2, 8, 4, 7, 6, 1, 5, 15, 11, 9, 14, 3, 12, 13, 0],
  #v[0, 1, 2, 3, 4, 5, 6, 7, 8, 9, 10, 11, 12, 13, 14, 15],
  #v[14, 10, 4, 8, 9, 15, 13, 6, 1, 12, 0, 2, 11, 7, 5, 3]]

/-- A word turned right by `n` bits. -/
def turn (n : UInt64) (x : UInt64) : UInt64 := (x >>> n) ||| (x <<< (64 - n))

/-- Two words of a block mixed into four words of the state. -/
def mix (v : Vector UInt64 16) (a b c d : Fin 16) (x y : UInt64) : Vector UInt64 16 :=
  let v := v.set a (v[a] + v[b] + x)
  let v := v.set d (turn 32 (v[d] ^^^ v[a]))
  let v := v.set c (v[c] + v[d])
  let v := v.set b (turn 24 (v[b] ^^^ v[c]))
  let v := v.set a (v[a] + v[b] + y)
  let v := v.set d (turn 16 (v[d] ^^^ v[a]))
  let v := v.set c (v[c] + v[d])
  v.set b (turn 63 (v[b] ^^^ v[c]))

/-- One round: the columns of the state, then its diagonals. -/
def round (m : Vector UInt64 16) (v : Vector UInt64 16) (s : Vector (Fin 16) 16) :
    Vector UInt64 16 :=
  let v := mix v 0 4 8 12 m[s[0]] m[s[1]]
  let v := mix v 1 5 9 13 m[s[2]] m[s[3]]
  let v := mix v 2 6 10 14 m[s[4]] m[s[5]]
  let v := mix v 3 7 11 15 m[s[6]] m[s[7]]
  let v := mix v 0 5 10 15 m[s[8]] m[s[9]]
  let v := mix v 1 6 11 12 m[s[10]] m[s[11]]
  let v := mix v 2 7 8 13 m[s[12]] m[s[13]]
  mix v 3 4 9 14 m[s[14]] m[s[15]]

/-- Eight bytes as a word, the first byte lowest. -/
def littleWord (bs : List UInt8) : UInt64 :=
  bs.foldr (fun b w => w * 256 + UInt64.ofNat b.toNat) 0

/-- The sixteen words of a block, which is filled up with zeros. -/
def blockWords (block : List UInt8) : Vector UInt64 16 :=
  Vector.ofFn fun i => littleWord ((block.drop (8 * i.val)).take 8)

/-- The state after one more block, when `count` bytes have been taken in with it. -/
def compress (h : Vector UInt64 8) (block : List UInt8) (count : Nat) (last : Bool) :
    Vector UInt64 8 :=
  let v := h ++ startWords
  let v := v.set 12 (v[12] ^^^ UInt64.ofNat count)
  let v := if last then v.set 14 (v[14] ^^^ 0xffffffffffffffff) else v
  let v := schedule.foldl (round (blockWords block)) v
  Vector.ofFn fun i => h[i] ^^^ v[i.val] ^^^ v[i.val + 8]

/-- The state after the remaining bytes, of which the last block may be short but is empty only
when there are no bytes at all. -/
def absorb (h : Vector UInt64 8) (count : Nat) (bs : List UInt8) : Vector UInt64 8 :=
  match hr : bs.drop 128 with
  | [] => compress h bs (count + bs.length) true
  | b :: rest =>
    have : (b :: rest).length < bs.length := by
      rw [← hr, List.length_drop]
      have := congrArg List.length hr
      simp only [List.length_drop, List.length_cons] at this
      omega
    absorb (compress h (bs.take 128) (count + 128) false) (count + 128) (b :: rest)
  termination_by bs.length

/-- The digest of bytes as a number below 2⁶⁴. -/
def ofBytes (bs : List UInt8) : Nat :=
  -- The parameter word: no key, one leaf, eight bytes of digest.
  let word := (absorb (startWords.set 0 (startWords[0] ^^^ 0x01010008)) 0 bs)[0].toNat
  (List.range 8).foldl (fun n k => n * 256 + (word >>> (8 * k)) % 256) 0

/-- The digest of a text. -/
def ofText (s : Text) : Nat := ofBytes (Text.encode s)

end GlslCompose.Digest
