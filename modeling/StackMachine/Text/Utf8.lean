/-!
Reading octets as UTF-8.  The decoder takes one octet at a time and never fails: octets that cannot
be part of a character become U+FFFD, one mark for each longest run of octets that begins a character
without completing it.
-/

set_option autoImplicit false

namespace StackMachine.Text.Utf8

/-- The mark that stands for octets that form no character. -/
def replacement : Char := '\ufffd'

/-- A character that is not complete yet: its bits so far, how many octets it still lacks, and the
range in which the next one must lie. -/
structure Pending where
  bits : Nat
  missing : Nat
  low : UInt8
  high : UInt8

/-- What an octet means where a character may start. -/
inductive Lead where
  | single (c : Char)
  | first (p : Pending)
  | invalid

/-- The bounds on the second octet rule out surrogates, code points past U+10FFFF and forms longer
than needed. -/
def lead (b : UInt8) : Lead :=
  if b < 0x80 then .single (Char.ofNat b.toNat)
  else if b < 0xC2 then .invalid
  else if b < 0xE0 then .first ⟨b.toNat - 0xC0, 1, 0x80, 0xBF⟩
  else if b < 0xF0 then
    .first ⟨b.toNat - 0xE0, 2, if b = 0xE0 then 0xA0 else 0x80, if b = 0xED then 0x9F else 0xBF⟩
  else if b < 0xF5 then
    .first ⟨b.toNat - 0xF0, 3, if b = 0xF0 then 0x90 else 0x80, if b = 0xF4 then 0x8F else 0xBF⟩
  else .invalid

/-- Whether `b` may follow what is pending. -/
def Pending.accepts (p : Pending) (b : UInt8) : Bool :=
  p.low ≤ b && b ≤ p.high

/-- The bits of `p` with the six of a continuation octet appended. -/
def Pending.extend (p : Pending) (b : UInt8) : Pending :=
  ⟨p.bits * 64 + (b.toNat - 0x80), p.missing - 1, 0x80, 0xBF⟩

/-- The decoder between two octets: the character it has begun, if any, and those it has completed, latest
first. -/
structure Decoder where
  pending : Option Pending
  decoded : List Char

namespace Decoder

def initial : Decoder := ⟨none, []⟩

/-- Takes an octet where a character may start. -/
def start (decoded : List Char) (b : UInt8) : Decoder :=
  match lead b with
  | .single c => ⟨none, c :: decoded⟩
  | .first p => ⟨some p, decoded⟩
  | .invalid => ⟨none, replacement :: decoded⟩

/-- Takes one octet. -/
def step (d : Decoder) (b : UInt8) : Decoder :=
  match d.pending with
  | none => start d.decoded b
  | some p =>
    if p.accepts b then
      let q := p.extend b
      if q.missing = 0 then ⟨none, Char.ofNat q.bits :: d.decoded⟩ else ⟨some q, d.decoded⟩
    else start (replacement :: d.decoded) b

/-- All characters, with a mark for one that was left incomplete. -/
def finish (d : Decoder) : List Char :=
  match d.pending with
  | none => d.decoded.reverse
  | some _ => (replacement :: d.decoded).reverse

end Decoder

/-- The text of some octets, with U+FFFD in place of what is not UTF-8. -/
def decodeLossy (octets : List UInt8) : String :=
  String.ofList (octets.foldl Decoder.step .initial).finish

end StackMachine.Text.Utf8
