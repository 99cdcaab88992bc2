/-!
Integers as a user types them: blanks around, a sign, a base prefix (`0x`, `0o`, `0b`) and
single underscores between digits. Without a base prefix the number is decimal, and a zero in
front is accepted only if all digits are zeros. Decimal digits of every script count as digits.
-/
namespace SymbolRecovery.Text.IntegerLiteral

/-- The zero of each run of ten decimal digits in Unicode 14. -/
def zeros : List Nat := [
  0x30, 0x660, 0x6F0, 0x7C0, 0x966, 0x9E6, 0xA66, 0xAE6, 0xB66, 0xBE6, 0xC66, 0xCE6, 0xD66,
  0xDE6, 0xE50, 0xED0, 0xF20, 0x1040, 0x1090, 0x17E0, 0x1810, 0x1946, 0x19D0, 0x1A80, 0x1A90,
  0x1B50, 0x1BB0, 0x1C40, 0x1C50, 0xA620, 0xA8D0, 0xA900, 0xA9D0, 0xA9F0, 0xAA50, 0xABF0,
  0xFF10, 0x104A0, 0x10D30, 0x11066, 0x110F0, 0x11136, 0x111D0, 0x112F0, 0x11450, 0x114D0,
  0x11650, 0x116C0, 0x11730, 0x118E0, 0x11950, 0x11C50, 0x11D50, 0x11DA0, 0x16A60, 0x16AC0,
  0x16B50, 0x1D7CE, 0x1D7D8, 0x1D7E2, 0x1D7EC, 0x1D7F6, 0x1E140, 0x1E2F0, 0x1E950, 0x1FBF0]

def blanks : List Nat := [
  0x09, 0x0A, 0x0B, 0x0C, 0x0D, 0x20, 0x85, 0xA0, 0x1680, 0x2000, 0x2001, 0x2002, 0x2003,
  0x2004, 0x2005, 0x2006, 0x2007, 0x2008, 0x2009, 0x200A, 0x2028, 0x2029, 0x202F, 0x205F,
  0x3000]

def isBlank (c : Char) : Bool := blanks.contains c.toNat

def decimalValue? (c : Char) : Option Nat :=
  (zeros.find? fun z => z ≤ c.toNat && c.toNat < z + 10).map (c.toNat - ·)

def digitValue? (c : Char) : Option Nat :=
  if 'a' ≤ c ∧ c ≤ 'z' then some (c.toNat - 'a'.toNat + 10)
  else if 'A' ≤ c ∧ c ≤ 'Z' then some (c.toNat - 'A'.toNat + 10)
  else decimalValue? c

def digits? (base : Nat) : List Char → Option (List Nat)
  | [] => none
  | [c] => (digitValue? c).filter (· < base) |>.map ([·])
  | c :: '_' :: rest => do
    let d ← (digitValue? c).filter (· < base)
    return d :: (← digits? base rest)
  | c :: rest => do
    let d ← (digitValue? c).filter (· < base)
    return d :: (← digits? base rest)

def ofDigits (base : Nat) (digits : List Nat) : Nat :=
  digits.foldl (fun value d => value * base + d) 0

/-- Most digits of a number that is read or shown in decimal. -/
def decimalLimit : Nat := 4300

def decimal? (text : List Char) : Option Nat := do
  let digits ← digits? 10 text
  guard (digits.length ≤ decimalLimit)
  return ofDigits 10 digits

def based? (base : Nat) : List Char → Option Nat
  | '_' :: text => (digits? base text).map (ofDigits base)
  | text => (digits? base text).map (ofDigits base)

def magnitude? (text : List Char) : Option Nat :=
  match text.map asciiDigit with
  | '0' :: letter :: rest =>
    if letter = 'x' ∨ letter = 'X' then based? 16 rest
    else if letter = 'o' ∨ letter = 'O' then based? 8 rest
    else if letter = 'b' ∨ letter = 'B' then based? 2 rest
    else (decimal? ('0' :: letter :: rest)).filter (· = 0)
  | digits => decimal? digits
where
  asciiDigit (c : Char) : Char :=
    match decimalValue? c with
    | some value => Char.ofNat (0x30 + value)
    | none => c

def signed? : List Char → Option Int
  | '-' :: text => (magnitude? text).map fun n => -(n : Int)
  | '+' :: text => (magnitude? text).map Int.ofNat
  | text => (magnitude? text).map Int.ofNat

def read? (s : String) : Option Int :=
  let text := s.toList.dropWhile isBlank
  signed? (text.reverse.dropWhile isBlank).reverse

example : read? " -0x_fF\n" = some (-255) := by cbv
example : read? "1_000" = some 1000 := by cbv
example : read? "010" = none := by cbv
example : read? "00" = some 0 := by cbv
example : read? "1__0" = none := by cbv

end SymbolRecovery.Text.IntegerLiteral
