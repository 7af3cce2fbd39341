import BuildingBus.Octets

/-!
# Text as bytes

The UTF-8 form of a text. `encode` writes it; `decode` reads it and refuses every byte string that
no text is written as, so the two are inverse to each other. `decodeLossy` reads any bytes: each
longest start of a broken character, and each byte that can start none, becomes U+FFFD.
-/

namespace BuildingBus.Text.Utf8

/-! ## Writing -/

/-- The one to four bytes of a character. -/
def encodeChar (c : Char) : Octets :=
  let n := c.toNat
  if n < 0x80 then [.ofNat n]
  else if n < 0x800 then [.ofNat (0xC0 + n / 0x40), .ofNat (0x80 + n % 0x40)]
  else if n < 0x10000 then
    [.ofNat (0xE0 + n / 0x1000), .ofNat (0x80 + n / 0x40 % 0x40), .ofNat (0x80 + n % 0x40)]
  else
    [.ofNat (0xF0 + n / 0x40000), .ofNat (0x80 + n / 0x1000 % 0x40),
      .ofNat (0x80 + n / 0x40 % 0x40), .ofNat (0x80 + n % 0x40)]

/-- The bytes of a text. -/
def encode (s : List Char) : Octets :=
  s.flatMap encodeChar

/-! ## Reading -/

/-- A character that more bytes have to complete, with the bounds on the next of them. After that
one the bounds are those of every later byte. -/
structure Pending where
  /-- bytes still to come -/
  missing : Nat
  /-- the least next byte that can follow -/
  least : UInt8
  /-- the greatest next byte that can follow -/
  greatest : UInt8
  /-- the code point as far as it has been read -/
  code : Nat

/-- What a byte at the start of a character says: it is one on its own, more bytes belong to it, or
no character begins with it. -/
inductive Lead where
  /-- a character of one byte -/
  | single (c : Char)
  /-- the first byte of a longer character -/
  | several (p : Pending)
  /-- a byte that starts no character -/
  | invalid

/-- The reading of the first byte of a character. The limits on the second byte keep out characters
written longer than needed, surrogates, and numbers beyond the last code point. -/
def lead (b : UInt8) : Lead :=
  let n := b.toNat
  if n < 0x80 then .single (Char.ofNat n)
  else if n < 0xC2 then .invalid
  else if n < 0xE0 then .several ⟨1, 0x80, 0xBF, n - 0xC0⟩
  else if n = 0xE0 then .several ⟨2, 0xA0, 0xBF, 0⟩
  else if n = 0xED then .several ⟨2, 0x80, 0x9F, 0xD⟩
  else if n < 0xF0 then .several ⟨2, 0x80, 0xBF, n - 0xE0⟩
  else if n = 0xF0 then .several ⟨3, 0x90, 0xBF, 0⟩
  else if n < 0xF4 then .several ⟨3, 0x80, 0xBF, n - 0xF0⟩
  else if n = 0xF4 then .several ⟨3, 0x80, 0x8F, 4⟩
  else .invalid

/-- The code point with one more byte read. -/
def Pending.extend (p : Pending) (b : UInt8) : Nat :=
  p.code * 0x40 + (b.toNat - 0x80)

/-- Whether a byte can continue a pending character. -/
def Pending.admits (p : Pending) (b : UInt8) : Bool :=
  p.least ≤ b && b ≤ p.greatest

/-- What is left to read after a byte that `p` admits, if anything. -/
def Pending.next (p : Pending) (b : UInt8) : Option Pending :=
  if p.missing = 1 then none else some ⟨p.missing - 1, 0x80, 0xBF, p.extend b⟩

/-- The text that follows a pending character, or the start of one. Bytes are read from the left,
with nothing but the pending character in mind. -/
def decodeFrom : Option Pending → Octets → Option (List Char)
  | none, [] => some []
  | some _, [] => none
  | none, b :: bs =>
    match lead b with
    | .single c => (decodeFrom none bs).map (c :: ·)
    | .several p => decodeFrom (some p) bs
    | .invalid => none
  | some p, b :: bs =>
    if p.admits b then
      match p.next b with
      | none => (decodeFrom none bs).map (Char.ofNat (p.extend b) :: ·)
      | some q => decodeFrom (some q) bs
    else none

/-- The text with these bytes, if there is one. -/
def decode (bs : Octets) : Option (List Char) :=
  decodeFrom none bs

/-- The character that stands for broken bytes. -/
def replacement : Char := '\uFFFD'

/-- The reading of a byte at the start of a character, with broken bytes replaced. -/
def lossyLead (b : UInt8) : List Char × Option Pending :=
  match lead b with
  | .single c => ([c], none)
  | .several p => ([], some p)
  | .invalid => ([replacement], none)

/-- One byte read after `pending`, with broken bytes replaced. -/
def lossyStep (pending : Option Pending) (b : UInt8) : List Char × Option Pending :=
  match pending with
  | none => lossyLead b
  | some p =>
    if p.admits b then
      match p.next b with
      | none => ([Char.ofNat (p.extend b)], none)
      | some q => ([], some q)
    else
      let (cs, q) := lossyLead b
      (replacement :: cs, q)

/-- The text that follows a pending character, or the start of one, with broken bytes replaced. -/
def decodeLossyFrom : Option Pending → Octets → List Char
  | none, [] => []
  | some _, [] => [replacement]
  | pending, b :: bs =>
    let (cs, q) := lossyStep pending b
    cs ++ decodeLossyFrom q bs

/-- The text of any bytes, with broken ones replaced. It never fails, and is used where a text is
only shown. -/
def decodeLossy (bs : Octets) : List Char :=
  decodeLossyFrom none bs

end BuildingBus.Text.Utf8
