/-!
# UTF-8 with replacement

Reading bytes as UTF-8 never fails.  A well-formed sequence gives its character.
Where the bytes are ill-formed, the longest part that some well-formed sequence
starts with gives one replacement character, and a byte that starts none gives one
for itself.
-/

namespace HeaderLint.Text

/-- The character that stands for ill-formed bytes. -/
def replacement : Char := '\ufffd'

/-- What the first byte of a sequence says: the number of bytes that follow, the
part of the code point that it holds, and the least and the greatest value of the
next byte. -/
structure Lead where
  /-- The number of bytes that follow. -/
  following : Nat
  /-- The high bits of the code point. -/
  high : UInt8
  /-- The least value of the next byte. -/
  least : UInt8
  /-- The greatest value of the next byte. -/
  greatest : UInt8
deriving DecidableEq, Repr

/-- The first bytes of sequences of two bytes and more. -/
def Lead.ofByte? (b : UInt8) : Option Lead :=
  if 0xc2 ≤ b && b ≤ 0xdf then some ⟨1, b - 0xc0, 0x80, 0xbf⟩
  else if b = 0xe0 then some ⟨2, 0, 0xa0, 0xbf⟩
  else if b = 0xed then some ⟨2, 0xd, 0x80, 0x9f⟩
  else if 0xe1 ≤ b && b ≤ 0xef then some ⟨2, b - 0xe0, 0x80, 0xbf⟩
  else if b = 0xf0 then some ⟨3, 0, 0x90, 0xbf⟩
  else if 0xf1 ≤ b && b ≤ 0xf3 then some ⟨3, b - 0xf0, 0x80, 0xbf⟩
  else if b = 0xf4 then some ⟨3, 4, 0x80, 0x8f⟩
  else none

/-- The bytes at the front that continue a sequence owing `n` bytes, the first of
them between `least` and `greatest`. -/
def continuation : Nat → UInt8 → UInt8 → List UInt8 → List UInt8
  | 0, _, _, _ => []
  | _, _, _, [] => []
  | n + 1, least, greatest, b :: bs =>
    if least ≤ b && b ≤ greatest then b :: continuation n 0x80 0xbf bs else []

/-- The code point with the given high bits, each byte that follows adding six. -/
def codePoint (high : UInt8) (bs : List UInt8) : Nat :=
  bs.foldl (fun k b => k * 64 + (b.toNat - 0x80)) high.toNat

/-- The characters of the bytes, with a replacement character for each ill-formed
part. -/
def decodeUtf8 : List UInt8 → List Char
  | [] => []
  | b :: bs =>
    if b < 0x80 then Char.ofNat b.toNat :: decodeUtf8 bs
    else
      match Lead.ofByte? b with
      | none => replacement :: decodeUtf8 bs
      | some lead =>
        let more := continuation lead.following lead.least lead.greatest bs
        let c := if more.length = lead.following then Char.ofNat (codePoint lead.high more)
          else replacement
        c :: decodeUtf8 (bs.drop more.length)
termination_by bs => bs.length
decreasing_by all_goals grind

/-- The characters are those that were encoded. -/
example : decodeUtf8 [0x61, 0xc3, 0xa9, 0xe6, 0x97, 0xa5, 0xf0, 0x9f, 0x98, 0x80]
    = "aé日😀".toList := by decide +kernel

/-- A sequence cut short is one replacement, and so is a byte that starts none. -/
example : decodeUtf8 [0xe6, 0x97, 0x61, 0x80, 0xed, 0xa0, 0x80]
    = [replacement, 'a', replacement, replacement, replacement, replacement] := by decide +kernel

end HeaderLint.Text
