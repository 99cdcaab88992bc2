import SymbolRecovery.Text.Hexadecimal

/-!
The ranges that fields of a record have to keep: section numbers take 16 bits, offsets, addresses
and lengths take 32, and an alignment is the exponent of a power of two up to 8192.

An error shows the value. Section numbers and alignments are shown in decimal, and where a number
may have at most so many decimal digits, a longer one makes the check fail before it can say so.
-/
namespace SymbolRecovery

inductive FieldError where
  | sectionIndex (field : String) (value : Int) (minimum : Int)
  | range (field : String) (value : Int)
  | alignment (value : Int)
  | unprintable (digits : Nat)
deriving Repr, DecidableEq

namespace FieldError

def decimal? : FieldError → Option Int
  | sectionIndex _ value _ | alignment value => some value
  | range .. | unprintable _ => none

/-- What an error becomes where numbers of at most so many decimal digits can be shown. -/
def within (digits : Option Nat) (e : FieldError) : FieldError :=
  match digits, e.decimal? with
  | some digits, some value => if value.natAbs < Nat.pow 10 digits then e else .unprintable digits
  | _, _ => e

end FieldError

namespace Field

/-- Section zero stands for absolute symbols, which not every record may be. -/
def sectionMin (allowZero : Bool) : Int := if allowZero then 0 else 1

def sectionMax : Int := 0xFFFF
def addressMax : Int := 0xFFFFFFFF
def alignmentMax : Int := 13

def checkSection (value : Int) (field : String := "section") (allowZero : Bool := true)
    (digits : Option Nat := none) : Except FieldError Int :=
  if sectionMin allowZero ≤ value ∧ value ≤ sectionMax then .ok value
  else .error (FieldError.within digits (.sectionIndex field value (sectionMin allowZero)))

def checkRange (value : Int) (field : String) : Except FieldError Int :=
  if 0 ≤ value ∧ value ≤ addressMax then .ok value else .error (.range field value)

def checkAlignment (value : Int) (digits : Option Nat := none) : Except FieldError Int :=
  if 0 ≤ value ∧ value ≤ alignmentMax then .ok value
  else .error (FieldError.within digits (.alignment value))

end Field

def FieldError.message : FieldError → String
  | sectionIndex field value minimum =>
    s!"{field} {value} outside of range {minimum}-{Text.hex Field.sectionMax}"
  | range field value =>
    s!"{field} {Text.hex value} outside of range 0-{Text.hex Field.addressMax}"
  | alignment value => s!"alignment 2**{value} exceeds 2**{Field.alignmentMax}"
  | unprintable digits =>
    s!"Exceeds the limit ({digits} digits) for integer string conversion; " ++
      "use sys.set_int_max_str_digits() to increase the limit"

end SymbolRecovery
