/-! UTF-8. Bytes that encode nothing read as the replacement character, one for each longest run
that some character's encoding starts with, and one for each other byte. -/
namespace GotoCheck.Text

/-- What the first byte of a longer encoding fixes: the leading bits of the code point, the bounds
of the second byte and the number of bytes after that. -/
structure Lead where
  bits : Nat
  least : Nat
  greatest : Nat
  more : Nat

/-- The bounds of the second byte leave out overlong encodings, surrogates and everything past the
last code point. -/
def lead? (b : Nat) : Option Lead :=
  if 0xc2 ≤ b ∧ b ≤ 0xdf then some ⟨b - 0xc0, 0x80, 0xbf, 0⟩
  else if b = 0xe0 then some ⟨0, 0xa0, 0xbf, 1⟩
  else if b = 0xed then some ⟨0xd, 0x80, 0x9f, 1⟩
  else if 0xe1 ≤ b ∧ b ≤ 0xef then some ⟨b - 0xe0, 0x80, 0xbf, 1⟩
  else if b = 0xf0 then some ⟨0, 0x90, 0xbf, 2⟩
  else if 0xf1 ≤ b ∧ b ≤ 0xf3 then some ⟨b - 0xf0, 0x80, 0xbf, 2⟩
  else if b = 0xf4 then some ⟨4, 0x80, 0x8f, 2⟩
  else none

def replacement : Char := '\ufffd'

/-- The code point that the leading bits and the next `n` bytes spell, if those bytes continue an
encoding, and how many of them do. Only the first has bounds of its own. -/
def continuation (bits : Nat) : (n least greatest : Nat) → List UInt8 → Option Nat × Nat
  | 0, _, _, _ => (some bits, 0)
  | n + 1, least, greatest, b :: rest =>
    if least ≤ b.toNat ∧ b.toNat ≤ greatest then
      let (code, length) := continuation (bits * 64 + (b.toNat - 0x80)) n 0x80 0xbf rest
      (code, length + 1)
    else (none, 0)
  | _ + 1, _, _, [] => (none, 0)

/-- The character that starts with a byte, and how many of the following bytes belong to it. -/
def decodeChar (b : UInt8) (rest : List UInt8) : Char × Nat :=
  if b.toNat < 0x80 then (Char.ofNat b.toNat, 0)
  else
    match lead? b.toNat with
    | none => (replacement, 0)
    | some l =>
      match continuation l.bits (l.more + 1) l.least l.greatest rest with
      | (some code, length) => (Char.ofNat code, length)
      | (none, length) => (replacement, length)

/-- The characters of any bytes. -/
def decode : List UInt8 → List Char
  | [] => []
  | b :: rest =>
    let (c, length) := decodeChar b rest
    c :: decode (rest.drop length)
termination_by bytes => bytes.length
decreasing_by simp only [List.length_drop, List.length_cons]; omega

end GotoCheck.Text
