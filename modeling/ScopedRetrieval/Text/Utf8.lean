/-
Bytes as text. The strict reading refuses bytes that are no UTF-8. The lenient one puts U+FFFD in
place of each maximal part that begins a character and does not complete it.
-/

namespace ScopedRetrieval.Text

def utf8 (s : String) : List UInt8 := s.toUTF8.data.toList

/-- The text of which these are the UTF-8 bytes, if there is one. -/
def ofUtf8? (bytes : List UInt8) : Option String := String.fromUTF8? ⟨bytes.toArray⟩

/-- What a first byte promises: how many bytes follow it, the bits it contributes and the range in
which the second byte must lie. The ranges exclude surrogates, numbers above U+10FFFF and
characters that have a shorter form. -/
structure Lead where
  more : Nat
  bits : Nat
  low : Nat := 0x80
  high : Nat := 0xBF

/-- The promise of a first byte, or `none` where no character begins so. -/
def lead? (b : Nat) : Option Lead :=
  if b < 0x80 then some { more := 0, bits := b }
  else if b < 0xC2 then none
  else if b < 0xE0 then some { more := 1, bits := b - 0xC0 }
  else if b = 0xE0 then some { more := 2, bits := 0, low := 0xA0 }
  else if b = 0xED then some { more := 2, bits := 0xD, high := 0x9F }
  else if b < 0xF0 then some { more := 2, bits := b - 0xE0 }
  else if b = 0xF0 then some { more := 3, bits := 0, low := 0x90 }
  else if b < 0xF4 then some { more := 3, bits := b - 0xF0 }
  else if b = 0xF4 then some { more := 3, bits := 4, high := 0x8F }
  else none

/-- The character that replaces what cannot be read. -/
def replacement : Char := '\uFFFD'

/-- Reads characters; `state` holds the promise of a character that has begun and is not
complete. -/
def decodeLenient : Option Lead → List UInt8 → List Char
  | none, [] => []
  | some _, [] => [replacement]
  | state, b :: rest =>
    match state with
    | some l =>
      if l.low ≤ b.toNat ∧ b.toNat ≤ l.high then
        let bits := l.bits * 64 + (b.toNat - 0x80)
        if l.more = 1 then Char.ofNat bits :: decodeLenient none rest
        else decodeLenient (some { more := l.more - 1, bits }) rest
      else replacement :: restart b rest
    | none => restart b rest
where
  /-- Reads on from a byte at which a character begins. -/
  restart (b : UInt8) (rest : List UInt8) : List Char :=
    match lead? b.toNat with
    | none => replacement :: decodeLenient none rest
    | some l =>
      if l.more = 0 then Char.ofNat l.bits :: decodeLenient none rest
      else decodeLenient (some l) rest

/-- The text of any bytes, with U+FFFD where they are no UTF-8. -/
def ofBytesLenient (bytes : List UInt8) : String := .ofList (decodeLenient none bytes)

end ScopedRetrieval.Text
