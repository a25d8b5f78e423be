/-
`Text/Utf8.lean` -- the UTF-8 form of a text, and reading it back.

`encode` writes each code point in one to four bytes. `decode` reads bytes from
left to right and stops at the first place where they are not UTF-8: it then
tells where the bad sequence starts, how many bytes of it were still in order,
and which of three things went wrong. Overlong forms, surrogates and numbers
above U+10FFFF are refused at the byte that gives them away.
-/
import GlslCompose.Text.Basic

set_option autoImplicit false

namespace GlslCompose.Text

/-! ## Writing -/

/-- The UTF-8 form of one character. -/
def encodeChar (c : Char) : List UInt8 :=
  let n := c.toNat
  let tail (n : Nat) : UInt8 := UInt8.ofNat (0x80 + n % 64)
  if n < 0x80 then [UInt8.ofNat n]
  else if n < 0x800 then [UInt8.ofNat (0xC0 + n / 64), tail n]
  else if n < 0x10000 then [UInt8.ofNat (0xE0 + n / 4096), tail (n / 64), tail n]
  else [UInt8.ofNat (0xF0 + n / 262144), tail (n / 4096), tail (n / 64), tail n]

/-- The UTF-8 form of a text. -/
def encode (s : Text) : List UInt8 := s.flatMap encodeChar

/-! ## Reading -/

/-- What is wrong with a sequence of bytes. -/
inductive Utf8Problem where
  /-- The first byte starts no sequence. -/
  | badStart
  /-- A byte inside the sequence does not continue it. -/
  | badContinuation
  /-- The bytes end inside the sequence. -/
  | cutShort
  deriving DecidableEq, Repr

/-- **The first fault in a row of bytes.** The sequence starts at `start`, and `bad` holds the
bytes of it that are to blame: the ones that were in order up to the fault, or all that was
left of a sequence cut short. -/
structure Utf8Fault where
  start : Nat
  bad : List UInt8
  problem : Utf8Problem
  deriving DecidableEq, Repr

/-- What a first byte asks for: how many bytes follow, the bits it adds, and the least and
greatest second byte. The limits on the second byte keep out overlong forms, surrogates and
numbers that are too large. -/
def leadByte? (b : UInt8) : Option (Nat × Nat × UInt8 × UInt8) :=
  if b < 0x80 then some (0, b.toNat, 0x80, 0xBF)
  else if b < 0xC2 then none
  else if b < 0xE0 then some (1, b.toNat - 0xC0, 0x80, 0xBF)
  else if b < 0xF0 then
    some (2, b.toNat - 0xE0, if b = 0xE0 then 0xA0 else 0x80, if b = 0xED then 0x9F else 0xBF)
  else if b < 0xF5 then
    some (3, b.toNat - 0xF0, if b = 0xF0 then 0x90 else 0x80, if b = 0xF4 then 0x8F else 0xBF)
  else none

/-- The bytes that continue a sequence, read one by one: `got` are the bytes in order so far,
`bits` what they spell, and the next byte must lie between `low` and `high`. Answers the code
point and the bytes that follow. -/
def tailBytes : (count : Nat) → (got : List UInt8) → (bits : Nat) → (low high : UInt8) →
    List UInt8 → Except (List UInt8 × Utf8Problem) (Nat × List UInt8)
  | 0, _, bits, _, _, bs => .ok (bits, bs)
  | _ + 1, got, _, _, _, [] => .error (got, .cutShort)
  | count + 1, got, bits, low, high, b :: bs =>
    if low ≤ b && b ≤ high then
      tailBytes count (got ++ [b]) (bits * 64 + (b.toNat - 0x80)) 0x80 0xBF bs
    else .error (got, .badContinuation)

/-- Reading the continuation never adds bytes. -/
theorem tailBytes_length_le {count : Nat} {got : List UInt8} {bits : Nat} {low high : UInt8}
    {bs : List UInt8} {n : Nat} {rest : List UInt8}
    (h : tailBytes count got bits low high bs = .ok (n, rest)) : rest.length ≤ bs.length := by
  fun_induction tailBytes count got bits low high bs with
  | case1 => simp_all
  | case2 => simp at h
  | case3 _ _ _ _ _ _ _ _ ih =>
    have := ih h
    simp only [List.length_cons]
    omega
  | case4 => simp at h

/-- The text that a row of bytes at position `start` spells, or its first fault. -/
def decodeFrom (start : Nat) : List UInt8 → Except Utf8Fault Text
  | [] => .ok []
  | b :: bs =>
    match leadByte? b with
    | none => .error ⟨start, [b], .badStart⟩
    | some (count, bits, low, high) =>
      match h : tailBytes count [b] bits low high bs with
      | .error (bad, problem) => .error ⟨start, bad, problem⟩
      | .ok (n, rest) =>
        have : rest.length ≤ bs.length := tailBytes_length_le h
        (decodeFrom (start + 1 + count) rest).map (Char.ofNat n :: ·)
  termination_by bs => bs.length
  decreasing_by simp only [List.length_cons]; omega

/-- The text that a row of bytes spells, or its first fault. -/
def decode (bs : List UInt8) : Except Utf8Fault Text := decodeFrom 0 bs

/-! ## What a fault is called -/

/-- The words for what is wrong. -/
def Utf8Problem.message : Utf8Problem → Text
  | .badStart => "invalid start byte"
  | .badContinuation => "invalid continuation byte"
  | .cutShort => "unexpected end of data"

/-- One bad byte is shown, several are located. -/
def Utf8Fault.message (fault : Utf8Fault) : Text :=
  let place : Text :=
    match fault.bad with
    | [b] => "byte 0x" ++ hex 2 b.toNat ++ " in position " ++ ofNat fault.start
    | bad => "bytes in position " ++ ofNat fault.start ++ "-" ++
        ofNat (fault.start + bad.length - 1)
  "'utf-8' codec can't decode " ++ place ++ ": " ++ fault.problem.message

end GlslCompose.Text
