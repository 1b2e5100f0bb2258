/-
  Provision.Yaml.Cursor

  The characters of a YAML stream, the classes they fall into, and a place in the
  stream. Line breaks are settled first: after `settleBreaks` a line ends in a line
  feed or in one of the two Unicode separators that keep their identity.
-/

namespace Provision.Yaml

/-! ## Characters -/

/-- The characters that may stand in a stream at all. -/
def isAllowed (c : Char) : Bool :=
  let code := c.toNat
  code == 0x09 || code == 0x0A || code == 0x0D || (0x20 ≤ code && code ≤ 0x7E) ||
    code == 0x85 || (0xA0 ≤ code && code ≤ 0xD7FF) ||
    (0xE000 ≤ code && code ≤ 0xFFFD && code != 0xFEFF) || 0x10000 ≤ code

/-- The mark that may stand once, in front of everything. -/
def byteOrderMark : Char := Char.ofNat 0xFEFF

/-- Turns carriage returns, alone or before a line feed, and next-line characters into
line feeds. -/
def settleBreaks : List Char → List Char
  | '\r' :: '\n' :: rest => '\n' :: settleBreaks rest
  | c :: rest => (if c = '\r' || c.toNat == 0x85 then '\n' else c) :: settleBreaks rest
  | [] => []

/-- A character that ends a line. -/
def isBreak (c : Char) : Bool := c == '\n' || c.toNat == 0x2028 || c.toNat == 0x2029

def isBlank (c : Char) : Bool := c == ' ' || c == '\t'

/-- True for a blank, a line break, and the end of the stream. -/
def endsWord : Option Char → Bool
  | none => true
  | some c => isBlank c || isBreak c

/-- The brackets and the comma of the flow style. -/
def isFlowIndicator (c : Char) : Bool := c == ',' || c == '[' || c == ']' || c == '{' || c == '}'

/-! ## Places -/

/-- A place in a stream: the characters to come, and where they stand. -/
structure Cursor where
  rest : List Char
  /-- Lines before this one. -/
  line : Nat
  /-- Characters before this one in its line. -/
  column : Nat
  index : Nat

namespace Cursor

def ofChars (chars : List Char) : Cursor := ⟨chars, 0, 0, 0⟩

def next (cursor : Cursor) : Cursor :=
  match cursor.rest with
  | [] => cursor
  | c :: rest =>
    if isBreak c then ⟨rest, cursor.line + 1, 0, cursor.index + 1⟩
    else ⟨rest, cursor.line, cursor.column + 1, cursor.index + 1⟩

def skip : Nat → Cursor → Cursor
  | 0, cursor => cursor
  | n + 1, cursor => skip n cursor.next

def peek (cursor : Cursor) : Option Char := cursor.rest.head?

def peekNext (cursor : Cursor) : Option Char := cursor.rest[1]?

/-- True when a marker of three equal characters stands here, alone in its word. -/
def atMarker (cursor : Cursor) (mark : Char) : Bool :=
  cursor.column == 0 && cursor.rest.take 3 == [mark, mark, mark] && endsWord cursor.rest[3]?

/-- True at a marker that starts or ends a document. -/
def atDocumentMarker (cursor : Cursor) : Bool := cursor.atMarker '-' || cursor.atMarker '.'

theorem length_rest_next (cursor : Cursor) : cursor.next.rest.length = cursor.rest.length - 1 := by
  unfold next
  split
  · simp [*]
  · split <;> simp [*]

theorem length_rest_skip (n : Nat) (cursor : Cursor) :
    (skip n cursor).rest.length = cursor.rest.length - n := by
  induction n generalizing cursor with
  | zero => rfl
  | succ n ih => rw [skip, ih, length_rest_next]; omega

end Cursor

end Provision.Yaml
