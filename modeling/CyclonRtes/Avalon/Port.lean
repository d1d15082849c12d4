import Mathlib.Data.Nat.Notation

/-!
# Avalon slave ports

The register interface through which a processor sees the components of the repository.  All of
them have the same slave port: a 3-bit word address, chip select, read and write strobes and 32-bit
data.  A `SlavePort` is what stands on the inputs of the port in one clock cycle.

The component descriptions declare `writeWaitTime 0` and `readWaitTime 1`: a write takes one cycle,
a read is held for two cycles and the master samples the data at the end of the second one.  The
macros `IOWR_32DIRECT` and `IORD_32DIRECT` address a register by its byte offset, which the bus
turns into a word address.

Two-valued logic is used throughout: `std_logic` is `Bool`, vectors are `BitVec`.  A register that
has no initial value in the source starts with an arbitrary one.
-/

namespace CyclonRtes

/-- `std_logic_vector(31 downto 0)`. -/
abbrev Word := BitVec 32

/-- The inputs of an Avalon slave port in one clock cycle. -/
structure SlavePort where
  address : BitVec 3
  chipSelect : Bool
  write : Bool
  writeData : Word
  read : Bool
  deriving DecidableEq, Repr

/-- A word whose bit 0 carries a flag tells the flag. -/
lemma eq_of_flag {b b' : Bool} (h : (if b then (1 : Word) else 0) = if b' then 1 else 0) :
    b = b' := by
  cases b <;> cases b' <;> first | rfl | exact absurd h (by decide)

namespace SlavePort

/-- The port carries a write cycle: `ChipSelect = '1' and Write = '1'`. -/
def writes (p : SlavePort) : Bool := p.chipSelect && p.write

/-- The port carries a read cycle: `ChipSelect = '1' and Read = '1'`. -/
def reads (p : SlavePort) : Bool := p.chipSelect && p.read

/-- The port carries a write cycle to the register at address `a`. -/
def writesTo (p : SlavePort) (a : BitVec 3) : Bool := p.writes && p.address == a

/-- The port carries a read cycle of the register at address `a`. -/
def readsFrom (p : SlavePort) (a : BitVec 3) : Bool := p.reads && p.address == a

/-- The port is not selected; the other lines carry whatever `p` shows. -/
def deselect (p : SlavePort) : SlavePort := { p with chipSelect := false }

/-- The cycle of `IOWR_32DIRECT(BASE, offset, data)`. -/
def iowr32Direct (offset : ℕ) (data : Word) : SlavePort :=
  { address := BitVec.ofNat 3 (offset / 4), chipSelect := true, write := true, writeData := data,
    read := false }

/-- The two equal cycles of `IORD_32DIRECT(BASE, offset)`. -/
def iord32Direct (offset : ℕ) : SlavePort :=
  { address := BitVec.ofNat 3 (offset / 4), chipSelect := true, write := false, writeData := 0,
    read := true }

@[simp] lemma writes_deselect (p : SlavePort) : p.deselect.writes = false := rfl

@[simp] lemma reads_deselect (p : SlavePort) : p.deselect.reads = false := rfl

@[simp] lemma writes_iowr32Direct (o : ℕ) (d : Word) : (iowr32Direct o d).writes = true := rfl

@[simp] lemma reads_iowr32Direct (o : ℕ) (d : Word) : (iowr32Direct o d).reads = false := rfl

@[simp] lemma writes_iord32Direct (o : ℕ) : (iord32Direct o).writes = false := rfl

@[simp] lemma reads_iord32Direct (o : ℕ) : (iord32Direct o).reads = true := rfl

/-- Writing to a particular register is a write cycle with its address. -/
lemma writesTo_iff {p : SlavePort} {a : BitVec 3} :
    p.writesTo a = true ↔ p.writes = true ∧ p.address = a := by
  simp [writesTo]

end SlavePort

end CyclonRtes
