/-!
UTF-8 text read from arbitrary octets. Reading never fails: a replacement character stands
for each longest run of octets that begins a character and cannot be completed, and for each
octet that can begin none.
-/
namespace SymbolRecovery.Text.Utf8

/-- A character under way: the bits read so far, how many octets are still missing, and the
bounds that the next one has to keep. -/
structure Pending where
  bits : Nat
  missing : Nat
  low : Nat := 0x80
  high : Nat := 0xBF
deriving Repr, DecidableEq

def replacement : Char := '\uFFFD'

/-- The first octet fixes the length. The bounds on the second one exclude overlong forms,
surrogates and everything past U+10FFFF. -/
def lead (octet : Nat) : List Char × Option Pending :=
  if octet < 0x80 then ([Char.ofNat octet], none)
  else if octet < 0xC2 then ([replacement], none)
  else if octet < 0xE0 then ([], some { bits := octet - 0xC0, missing := 1 })
  else if octet = 0xE0 then ([], some { bits := 0, missing := 2, low := 0xA0 })
  else if octet = 0xED then ([], some { bits := 0xD, missing := 2, high := 0x9F })
  else if octet < 0xF0 then ([], some { bits := octet - 0xE0, missing := 2 })
  else if octet = 0xF0 then ([], some { bits := 0, missing := 3, low := 0x90 })
  else if octet < 0xF4 then ([], some { bits := octet - 0xF0, missing := 3 })
  else if octet = 0xF4 then ([], some { bits := 4, missing := 3, high := 0x8F })
  else ([replacement], none)

def step : Option Pending → Nat → List Char × Option Pending
  | none, octet => lead octet
  | some p, octet =>
    if p.low ≤ octet ∧ octet ≤ p.high then
      let bits := p.bits * 64 + (octet - 0x80)
      if p.missing ≤ 1 then ([Char.ofNat bits], none)
      else ([], some { bits, missing := p.missing - 1 })
    else
      let next := lead octet
      (replacement :: next.1, next.2)

def decodeFrom : Option Pending → List UInt8 → List Char
  | none, [] => []
  | some _, [] => [replacement]
  | pending, octet :: octets =>
    let next := step pending octet.toNat
    next.1 ++ decodeFrom next.2 octets

def decode (octets : List UInt8) : String := String.ofList (decodeFrom none octets)

def cut (limit : Nat) (text : String) : String := decode (text.toUTF8.data.toList.take limit)

example : decodeFrom none [0xE2, 0x82, 0xAC, 0x41] = ['€', 'A'] := by decide
example : decodeFrom none [0xED, 0xA0, 0x80] = [replacement, replacement, replacement] := by decide
example : decodeFrom none [0xE2, 0x82, 0x41] = [replacement, 'A'] := by decide
example : decodeFrom none [0xF4, 0x90] = [replacement, replacement] := by decide

end SymbolRecovery.Text.Utf8
