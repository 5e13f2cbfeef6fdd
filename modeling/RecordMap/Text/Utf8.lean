import RecordMap.Decimal

/-!
# UTF-8

Bytes are read one at a time.  A sequence that has begun knows how many bytes it still needs and
the bounds of the next one, which rules out overlong forms, surrogates and code points past the
last one as soon as the second byte is seen.  `decode` stops at the first flaw and says where it
is; `decodeLossy` puts a replacement character in the place of every flawed sequence.
-/

namespace RecordMap.Utf8

/-- A sequence that has begun and is not complete. -/
structure Pending where
  seen : Nat
  missing : Nat
  low : UInt8
  high : UInt8
  value : Nat
  deriving DecidableEq

inductive Progress
  | char (c : Char)
  | more (p : Pending)
  | bad
  deriving DecidableEq

/-- What the first byte of a sequence says about the rest. -/
def start (b : UInt8) : Progress :=
  if b < 0x80 then .char (Char.ofNat b.toNat)
  else if b < 0xC2 then .bad
  else if b < 0xE0 then .more ⟨1, 1, 0x80, 0xBF, b.toNat % 32⟩
  else if b < 0xF0 then
    .more ⟨1, 2, if b = 0xE0 then 0xA0 else 0x80, if b = 0xED then 0x9F else 0xBF, b.toNat % 16⟩
  else if b < 0xF5 then
    .more ⟨1, 3, if b = 0xF0 then 0x90 else 0x80, if b = 0xF4 then 0x8F else 0xBF, b.toNat % 8⟩
  else .bad

def Pending.step (p : Pending) (b : UInt8) : Progress :=
  if p.low ≤ b && b ≤ p.high then
    let value := p.value * 64 + b.toNat % 64
    if p.missing ≤ 1 then .char (Char.ofNat value)
    else .more ⟨p.seen + 1, p.missing - 1, 0x80, 0xBF, value⟩
  else .bad

/-- Where the bytes stop being UTF-8. -/
inductive Flaw
  | malformed (size index : Nat)
  | incomplete (index : Nat)
  deriving DecidableEq

def Flaw.message : Flaw → String
  | .malformed size index =>
    "invalid utf-8 sequence of " ++ Decimal.text size ++ " bytes from index " ++ Decimal.text index
  | .incomplete index => "incomplete utf-8 byte sequence from index " ++ Decimal.text index

/-- `index` is the place of the next byte. -/
def decodeFrom (index : Nat) : Option Pending → List UInt8 → Except Flaw (List Char)
  | none, [] => .ok []
  | some p, [] => .error (.incomplete (index - p.seen))
  | none, b :: bs =>
    match start b with
    | .char c => (decodeFrom (index + 1) none bs).map (c :: ·)
    | .more p => decodeFrom (index + 1) (some p) bs
    | .bad => .error (.malformed 1 index)
  | some p, b :: bs =>
    match p.step b with
    | .char c => (decodeFrom (index + 1) none bs).map (c :: ·)
    | .more q => decodeFrom (index + 1) (some q) bs
    | .bad => .error (.malformed p.seen (index - p.seen))

def decode (bs : List UInt8) : Except Flaw (List Char) := decodeFrom 0 none bs

def replacement : Char := '\uFFFD'

def decodeLossyFrom : Option Pending → List UInt8 → List Char
  | none, [] => []
  | some _, [] => [replacement]
  | none, b :: bs =>
    match start b with
    | .char c => c :: decodeLossyFrom none bs
    | .more p => decodeLossyFrom (some p) bs
    | .bad => replacement :: decodeLossyFrom none bs
  | some p, b :: bs =>
    match p.step b with
    | .char c => c :: decodeLossyFrom none bs
    | .more q => decodeLossyFrom (some q) bs
    | .bad =>
      match start b with
      | .char c => replacement :: c :: decodeLossyFrom none bs
      | .more q => replacement :: decodeLossyFrom (some q) bs
      | .bad => replacement :: replacement :: decodeLossyFrom none bs

def decodeLossy (bs : List UInt8) : List Char := decodeLossyFrom none bs

def encode (cs : List Char) : List UInt8 := cs.flatMap String.utf8EncodeChar

end RecordMap.Utf8
