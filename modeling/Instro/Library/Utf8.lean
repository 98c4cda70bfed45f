import Instro.Library.PyText

/-!
# UTF-8

`bytes.decode(errors="replace")` one byte at a time, and `str.encode`. Bytes that are no character become
replacement characters: one for each byte that begins none, and one for the bytes that begin a character
which does not go on.
-/

namespace Instro.Library.Utf8

/-- A character that has begun: its bits so far, how many bytes follow the next one, and the bounds of the
next one. -/
structure Pending where
  bits : ℕ
  more : ℕ
  low : ℕ
  high : ℕ

def replacement : Char := '\ufffd'

/-- The first byte of a character: what is decoded, and what has begun. -/
def first (b : ℕ) : Text × Option Pending :=
  if b < 0x80 then ([Char.ofNat b], none)
  else if b < 0xc2 then ([replacement], none)
  else if b < 0xe0 then ([], some ⟨b - 0xc0, 0, 0x80, 0xbf⟩)
  else if b < 0xf0 then
    ([], some ⟨b - 0xe0, 1, if b = 0xe0 then 0xa0 else 0x80, if b = 0xed then 0x9f else 0xbf⟩)
  else if b < 0xf5 then
    ([], some ⟨b - 0xf0, 2, if b = 0xf0 then 0x90 else 0x80, if b = 0xf4 then 0x8f else 0xbf⟩)
  else ([replacement], none)

/-- The next byte. One that does not continue the character begins another. -/
def next : Option Pending → ℕ → Text × Option Pending
  | none, b => first b
  | some p, b =>
    if p.low ≤ b ∧ b ≤ p.high then
      let bits := p.bits * 0x40 + (b - 0x80)
      if p.more = 0 then ([Char.ofNat bits], none)
      else ([], some ⟨bits, p.more - 1, 0x80, 0xbf⟩)
    else (replacement :: (first b).1, (first b).2)

def decodeFrom : Option Pending → List UInt8 → Text
  | none, [] => []
  | some _, [] => [replacement]
  | state, b :: bytes => (next state b.toNat).1 ++ decodeFrom (next state b.toNat).2 bytes

/-- `decode(errors="replace")` -/
def decode (bytes : List UInt8) : Text := decodeFrom none bytes

/-- `encode()` -/
def encode (text : Text) : List UInt8 := text.flatMap String.utf8EncodeChar

/-- Text in ASCII is decoded byte by byte. -/
theorem decode_ascii {bytes : List UInt8} (h : ∀ b ∈ bytes, b.toNat < 0x80) :
    decode bytes = bytes.map fun b => Char.ofNat b.toNat := by
  unfold decode
  induction bytes with
  | nil => rfl
  | cons b bytes ih =>
    obtain ⟨hb, hbytes⟩ := List.forall_mem_cons.mp h
    have hfirst : next none b.toNat = ([Char.ofNat b.toNat], none) := if_pos hb
    rw [decodeFrom, hfirst, ih hbytes]
    rfl

end Instro.Library.Utf8
