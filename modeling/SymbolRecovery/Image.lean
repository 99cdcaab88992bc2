import SymbolRecovery.Text.Hexadecimal

/-!
What is known of the image that the symbols belong to: its sections, the named groups that cover
ranges of them, and the lookup that says where a section is loaded.
-/
namespace SymbolRecovery

/-- Load base of the image that a section belongs to, while it is known. -/
abbrev LoadLayout := Int → Option Int

namespace LoadLayout

def imageBase (base : Int) : LoadLayout := fun _ => some base

/-- A base for each of the listed sections and for no other; of two entries the later counts. -/
def listed (bases : List (Int × Option Int)) : LoadLayout := fun index =>
  (bases.reverse.lookup index).join

def imageBaseText (base : Int) : String := s!"<ImageBaseLayout image_base={Text.hex base}>"

end LoadLayout

/-- A section of the image. Its base is the absolute address, once that is known. -/
structure ImageSection where
  index : Int
  rva : Int
  length : Int
  characteristics : Int := 0
  alignment : Int := 0
  name : String := ""
  base : Option Int := none
deriving Repr, DecidableEq

inductive AlignmentError where
  | negative
  | tooManyDigits
  | outOfMemory
deriving Repr, DecidableEq

def AlignmentError.message : AlignmentError → String
  | negative => "negative shift count"
  | tooManyDigits => "too many digits in integer"
  | outOfMemory => ""

namespace ImageSection

def isResolved (s : ImageSection) : Bool := s.base.isSome

def contains (s : ImageSection) (offset : Int) : Bool := 0 ≤ offset ∧ offset < s.length

def digitLimit : Int := (0x7FFFFFFFFFFFFFFF - 24) / 4

/-- Two to the power of the alignment, on a machine without the memory for exponents from a limit
on. Room is made for one digit and for as many as the one is moved by, a part of a digit counting in
full. -/
def alignmentBytes (s : ImageSection) (memoryLimit : Int) : Except AlignmentError Nat :=
  if s.alignment < 0 then .error .negative
  else if digitLimit < 1 + (s.alignment + 29) / 30 then .error .tooManyDigits
  else if memoryLimit ≤ s.alignment then .error .outOfMemory
  else .ok (1 <<< s.alignment.toNat)

end ImageSection

structure Contribution where
  sectionIndex : Int
  offset : Int
  length : Int
  address : Option Int := none
deriving Repr, DecidableEq

structure SectionGroup where
  name : String
  characteristics : Int := 0
  contributions : List Contribution := []
deriving Repr, DecidableEq

def SectionGroup.sections (g : SectionGroup) : List Int :=
  (g.contributions.map (·.sectionIndex)).eraseDups

end SymbolRecovery
