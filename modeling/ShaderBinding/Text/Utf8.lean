import ShaderBinding.Bytes

/-! # Reading UTF-8

Text from bytes that may not be UTF-8. Each longest start of a well-formed character that the
next byte breaks off, and each byte that starts none, becomes one replacement character.
-/

namespace ShaderBinding.Utf8

def replacement : Char := '\ufffd'

def isContinuation (b : UInt8) : Bool := 0x80 ≤ b && b ≤ 0xBF

/-- Whether `b` can follow a first byte; this rules out overlong forms and surrogates. -/
def canFollow (first b : UInt8) : Bool :=
  if first = 0xE0 then 0xA0 ≤ b && b ≤ 0xBF
  else if first = 0xED then 0x80 ≤ b && b ≤ 0x9F
  else if first = 0xF0 then 0x90 ≤ b && b ≤ 0xBF
  else if first = 0xF4 then 0x80 ≤ b && b ≤ 0x8F
  else isContinuation b

/-- Bytes of the characters that start with `first`; zero if there are none. -/
def width (first : UInt8) : Nat :=
  if first < 0x80 then 1
  else if first < 0xC2 then 0
  else if first < 0xE0 then 2
  else if first < 0xF0 then 3
  else if first < 0xF5 then 4
  else 0

/-- A character of which some bytes are still missing. -/
structure Pending where
  missing : Nat
  bits : Nat
  accepts : UInt8 → Bool

/-- What a first byte yields: a character to complete, or one that is complete. -/
def start (b : UInt8) : Option Pending × List Char :=
  match width b with
  | 0 => (none, [replacement])
  | 1 => (none, [Char.ofNat b.toNat])
  | 2 => (some ⟨1, b.toNat % 32, canFollow b⟩, [])
  | 3 => (some ⟨2, b.toNat % 16, canFollow b⟩, [])
  | _ => (some ⟨3, b.toNat % 8, canFollow b⟩, [])

def step (pending : Option Pending) (b : UInt8) : Option Pending × List Char :=
  match pending with
  | none => start b
  | some p =>
    if p.accepts b then
      let bits := p.bits * 64 + b.toNat % 64
      if p.missing ≤ 1 then (none, [Char.ofNat bits])
      else (some ⟨p.missing - 1, bits, isContinuation⟩, [])
    else
      let (pending, text) := start b
      (pending, replacement :: text)

def decodeFrom : Option Pending → Bytes → List Char
  | none, [] => []
  | some _, [] => [replacement]
  | pending, b :: rest => (step pending b).2 ++ decodeFrom (step pending b).1 rest

def decode (bytes : Bytes) : String := .ofList (decodeFrom none bytes)

end ShaderBinding.Utf8
