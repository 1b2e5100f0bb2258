/-
  Provision.Bytes

  Runs of bytes, the ASCII bytes that the wire formats name, and the few tests
  on a single byte that the request header and the form body are read with.
-/

namespace Provision

/-- A run of bytes, first byte first. -/
abbrev Bytes := List UInt8

namespace Byte

/-! ## Named bytes -/

def lf : UInt8 := 0x0A

def cr : UInt8 := 0x0D

def tab : UInt8 := 0x09

def space : UInt8 := 0x20

/-- The sign between the name and the value of a form field. -/
def equals : UInt8 := 0x3D

/-- The sign that every page path starts with. -/
def slash : UInt8 := 0x2F

/-! ## Classes -/

/-- A line break byte: either half of a CRLF. -/
def isBreak (b : UInt8) : Bool := b == cr || b == lf

def isBlank (b : UInt8) : Bool := b == space || b == tab

def isDigit (b : UInt8) : Bool := 0x30 ≤ b && b ≤ 0x39

def digitValue (b : UInt8) : Nat := b.toNat - 0x30

/-- An ASCII capital letter becomes its small letter; every other byte stays. -/
def lower (b : UInt8) : UInt8 := if 0x41 ≤ b && b ≤ 0x5A then b + 0x20 else b

end Byte

end Provision
