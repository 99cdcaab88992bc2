import SymbolRecovery.Proofs.Symbols

/-!
What an accepted record describes. Main statement: a record asks for a change exactly if it is a
valid record of a section, of a part of a group, of a symbol, of an object file or of a compiler,
and which of these it is decides the change.
-/
namespace SymbolRecovery

namespace Record

def HasExtent (r : Record) : Prop :=
  (1 ≤ r.sectionIndex ∧ r.sectionIndex ≤ 0xFFFF) ∧
    (0 ≤ r.address ∧ r.address ≤ 0xFFFFFFFF) ∧ (0 ≤ r.length ∧ r.length ≤ 0xFFFFFFFF)

instance (r : Record) : Decidable r.HasExtent := inferInstanceAs (Decidable (_ ∧ _))

/-- A valid record of a section. -/
def IsSection (r : Record) : Prop :=
  r.kind = Kind.imageSection ∧ r.truncated = false ∧ r.HasExtent ∧
    (0 ≤ r.alignment ∧ r.alignment ≤ 13)

instance (r : Record) : Decidable r.IsSection := inferInstanceAs (Decidable (_ ∧ _))

def IsPart (r : Record) : Prop :=
  r.kind = Kind.sectionGroup ∧ r.truncated = false ∧ r.HasExtent

instance (r : Record) : Decidable r.IsPart := inferInstanceAs (Decidable (_ ∧ _))

def IsSymbol (r : Record) : Prop :=
  r.kind ∈ Kind.symbols ∧ r.truncated = false ∧
    (0 ≤ r.sectionIndex ∧ r.sectionIndex ≤ 0xFFFF) ∧ (0 ≤ r.address ∧ r.address ≤ 0xFFFFFFFF)

instance (r : Record) : Decidable r.IsSymbol := inferInstanceAs (Decidable (_ ∧ _))

def IsObjectName (r : Record) : Prop := r.kind = Kind.objectName ∧ r.truncated = false

instance (r : Record) : Decidable r.IsObjectName := inferInstanceAs (Decidable (_ ∧ _))

def IsCompiler (r : Record) : Prop := r.kind = Kind.compiler ∧ r.truncated = false

instance (r : Record) : Decidable r.IsCompiler := inferInstanceAs (Decidable (_ ∧ _))

def imageSection (r : Record) : ImageSection where
  index := r.sectionIndex
  rva := r.address
  length := r.length
  characteristics := r.characteristics
  alignment := r.alignment
  name := r.name

def part (r : Record) : Contribution where
  sectionIndex := r.sectionIndex
  offset := r.address
  length := r.length

def symbol (r : Record) (position : Nat) : Symbol where
  kind := r.kind
  name := r.name
  sectionIndex := r.sectionIndex
  offset := r.address
  typeIndex := r.typeIndex
  flags := r.flags
  position := position

def unit (r : Record) (position : Nat) : CompileUnit where
  name := r.name
  signature := r.signature
  position := position

inductive Describes (r : Record) (position : Nat) : Change → Prop where
  | imageSection (valid : r.IsSection) : Describes r position (.addSection r.imageSection)
  | part (valid : r.IsPart) :
      Describes r position (.addContribution r.name r.characteristics r.part)
  | symbol (valid : r.IsSymbol) : Describes r position (.addSymbol (r.symbol position))
  | objectName (valid : r.IsObjectName) : Describes r position (.addUnit (r.unit position))
  | compiler (valid : r.IsCompiler) :
      Describes r position (.describeUnit position (r.flags % 256) r.machine r.version)

variable {r : Record} {position : Nat} {change : Change}

theorem readContribution_eq_ok {part : Contribution} :
    Subject.readContribution r = .ok part ↔ r.HasExtent ∧ part = r.part := by
  simp only [Subject.readContribution, Field.bind_eq_ok, Field.checkSection_eq_ok,
    Field.checkRange_eq_ok, pure, Except.pure]
  simp [HasExtent, Record.part, and_assoc, eq_comm (b := part)]

theorem describes_of_read {subject : Subject} (kind : r.kind ∈ subject.kinds)
    (whole : r.truncated = false) (read : subject.read r position = .ok change) :
    r.Describes position change := by
  cases subject with
  | imageSection =>
    obtain ⟨s, accepted, rfl⟩ := Field.map_eq_ok.1 read
    obtain ⟨index, address, length, alignment, rfl⟩ := readSection_eq_ok.1 accepted
    exact .imageSection ⟨List.mem_singleton.1 kind, whole, ⟨index, address, length⟩, alignment⟩
  | sectionGroup =>
    obtain ⟨part, accepted, rfl⟩ := Field.map_eq_ok.1 read
    obtain ⟨extent, rfl⟩ := readContribution_eq_ok.1 accepted
    exact .part ⟨List.mem_singleton.1 kind, whole, extent⟩
  | symbol =>
    obtain ⟨s, accepted, rfl⟩ := Field.map_eq_ok.1 read
    obtain ⟨index, address, rfl⟩ := readSymbol_eq_ok.1 accepted
    exact .symbol ⟨kind, whole, index, address⟩
  | objectName =>
    cases read
    exact .objectName ⟨List.mem_singleton.1 kind, whole⟩
  | compiler =>
    cases read
    exact .compiler ⟨List.mem_singleton.1 kind, whole⟩

theorem effect_of_read (subject : Subject) (kind : r.kind ∈ subject.kinds)
    (whole : r.truncated = false) (read : subject.read r position = .ok change) :
    r.effect position = .describes change :=
  effect_eq_describes.2 ⟨subject, Role.ofKind?_eq_describes_iff.2 kind, whole, read⟩

theorem Describes.effect_eq (describes : r.Describes position change) :
    r.effect position = .describes change := by
  cases describes with
  | imageSection valid =>
    obtain ⟨kind, whole, ⟨index, address, length⟩, alignment⟩ := valid
    have read := readSection_eq_ok.2 ⟨index, address, length, alignment, rfl⟩
    refine effect_of_read .imageSection (List.mem_singleton.2 kind) whole ?_
    exact Field.map_eq_ok.2 ⟨_, read, rfl⟩
  | part valid =>
    obtain ⟨kind, whole, extent⟩ := valid
    have read := readContribution_eq_ok.2 ⟨extent, rfl⟩
    refine effect_of_read .sectionGroup (List.mem_singleton.2 kind) whole ?_
    exact Field.map_eq_ok.2 ⟨_, read, rfl⟩
  | symbol valid =>
    obtain ⟨kind, whole, index, address⟩ := valid
    have read : Subject.readSymbol r position = .ok (r.symbol position) :=
      readSymbol_eq_ok.2 ⟨index, address, rfl⟩
    refine effect_of_read .symbol kind whole ?_
    exact Field.map_eq_ok.2 ⟨_, read, rfl⟩
  | objectName valid =>
    exact effect_of_read .objectName (List.mem_singleton.2 valid.1) valid.2 rfl
  | compiler valid =>
    exact effect_of_read .compiler (List.mem_singleton.2 valid.1) valid.2 rfl

theorem effect_eq_describes_iff :
    r.effect position = .describes change ↔ r.Describes position change := by
  constructor
  · intro asks
    obtain ⟨subject, given, whole, read⟩ := effect_eq_describes.1 asks
    exact describes_of_read (Role.ofKind?_eq_describes_iff.1 given) whole read
  · exact Describes.effect_eq

theorem not_isPart_of_isSection (isSection : r.IsSection) : ¬ r.IsPart := by
  intro isPart
  have same := isSection.1.symm.trans isPart.1
  exact absurd same (by decide)

end Record

theorem Context.perform_of_silent (c : Context) {e : Effect}
    (silent : ∀ change, e ≠ .describes change) :
    ∃ arena top stack unresolved, c.perform e = { c with arena, top, stack, unresolved } := by
  cases e with
  | ignored => exact ⟨_, _, _, _, rfl⟩
  | refused cause => exact ⟨_, _, _, _, rfl⟩
  | describes change => exact absurd rfl (silent change)
  | holds form placeholder cause => exact ⟨_, _, _, _, rfl⟩
  | opens form s endOffset =>
    obtain ⟨unresolved, enters⟩ := c.enterScope_eq form s endOffset
    rw [perform, enters, attachScope]
    cases c.currentScope? <;> exact ⟨_, _, _, _, rfl⟩
  | closes kind =>
    rw [perform, closeScope_eq]
    exact ⟨_, _, _, _, rfl⟩

end SymbolRecovery
