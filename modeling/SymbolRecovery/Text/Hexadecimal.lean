/-!
Hexadecimal text of an integer, in the two forms that reports use: plain, and padded
with zeros. A negative number keeps its sign in front of its digits.
-/
namespace SymbolRecovery.Text

def hexDigits (n : Nat) : String := String.ofList (Nat.toDigits 16 n)

/-- The sign stands before the `0x`. -/
def hex (n : Int) : String :=
  (if n < 0 then "-0x" else "0x") ++ hexDigits n.natAbs

/-- The sign stands after the `0x` and counts towards the four places that are filled up. -/
def hexPadded (n : Int) : String :=
  let digits := Nat.toDigits 16 n.natAbs
  let sign := if n < 0 then ['-'] else []
  let zeros := List.replicate (4 - sign.length - digits.length) '0'
  "0x" ++ String.ofList (sign ++ zeros ++ digits)

example : hex (-4096) = "-0x1000" := by cbv
example : hexPadded 6 = "0x0006" := by cbv
example : hexPadded (-1) = "0x-001" := by cbv
example : hexPadded 0x11136 = "0x11136" := by cbv

end SymbolRecovery.Text
