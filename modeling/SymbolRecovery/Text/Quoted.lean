import SymbolRecovery.Text.Hexadecimal
import SymbolRecovery.Text.Printable

/-!
Names in messages stand between quotes: apostrophes, or double quotes where the name holds an
apostrophe and no double quote. The backslash, the quote in use and every character that cannot
be printed are written as escapes, so that a message stays on one line.
-/
namespace SymbolRecovery.Text

def apostrophe : Char := '\x27'
def doubleQuote : Char := '\x22'
def backslash : Char := '\x5c'

def codeDigits (places n : Nat) : List Char :=
  let digits := Nat.toDigits 16 n
  List.replicate (places - digits.length) '0' ++ digits

def escape (quote c : Char) : List Char :=
  if c = backslash ∨ c = quote then [backslash, c]
  else if c = '\n' then [backslash, 'n']
  else if c = '\r' then [backslash, 'r']
  else if c = '\t' then [backslash, 't']
  else if isPrintable c then [c]
  else if c.toNat < 0x100 then backslash :: 'x' :: codeDigits 2 c.toNat
  else if c.toNat < 0x10000 then backslash :: 'u' :: codeDigits 4 c.toNat
  else backslash :: 'U' :: codeDigits 8 c.toNat

def quoteFor (text : List Char) : Char :=
  if apostrophe ∈ text ∧ doubleQuote ∉ text then doubleQuote else apostrophe

def quoted (s : String) : String :=
  let text := s.toList
  let quote := quoteFor text
  String.ofList (quote :: text.flatMap (escape quote) ++ [quote])

end SymbolRecovery.Text
