/-
  Provision.Yaml.Scalar

  The four ways to write a scalar: plain, single quoted, double quoted and as a block.
  Each reader starts at the first character of its scalar and answers the text and the
  place where it stopped. Between words, blanks are kept and line breaks are folded:
  one break becomes a space, and of several the first is dropped.
-/
import Provision.Yaml.Cursor

namespace Provision.Yaml

/-! ## What stands between two words -/

/-- The blanks and breaks read since the last word. -/
inductive Gap where
  | closed
  | blanks (chars : List Char)
  /-- At least one line break: the first, unless it was escaped, and those after it. -/
  | broken (first : Option Char) (more : List Char)

namespace Gap

/-- Reads a blank. Blanks at the start of a line are dropped. -/
def pushBlank (gap : Gap) (c : Char) : Gap :=
  match gap with
  | closed => blanks [c]
  | blanks chars => blanks (chars ++ [c])
  | broken first more => broken first more

/-- Reads a line break. Blanks before it are dropped. -/
def pushBreak (gap : Gap) (c : Char) : Gap :=
  match gap with
  | broken first more => broken first (more ++ [c])
  | _ => broken (some c) []

def isBroken : Gap → Bool
  | broken .. => true
  | _ => false

/-- What the gap contributes to the text. -/
def text : Gap → List Char
  | closed => []
  | blanks chars => chars
  | broken none more => more
  | broken (some c) more =>
    if c = '\n' then (if more.isEmpty then [' '] else more) else c :: more

end Gap

/-- A scalar that was read, and what comes after it. -/
structure ScalarRead where
  text : String
  cursor : Cursor
  /-- True when the reader went on to a new line to find the end. -/
  brokeLine : Bool

/-! ## Plain scalars -/

/-- True at a character that ends a plain scalar. -/
def endsPlain (inFlow : Bool) (c : Char) (following : Option Char) : Bool :=
  (c == ':' && endsWord following) || (inFlow && isFlowIndicator c)

/-- True at a colon that a plain scalar of the flow style must not hold. -/
def spoilsPlain (inFlow : Bool) (c : Char) (following : Option Char) : Bool :=
  inFlow && c == ':' && (following.any fun f => isFlowIndicator f || f == '?')

/-- Reads on in a plain scalar of which `text` was read. Lines that belong to it start at
column `margin` or later. -/
def readPlain (inFlow : Bool) (margin : Nat) (text : List Char) (gap : Gap) (cursor : Cursor) :
    Option ScalarRead :=
  let stop : Option ScalarRead := some ⟨String.ofList text, cursor, gap.isBroken⟩
  match _h : cursor.rest with
  | [] => stop
  | c :: rest =>
    if isBlank c then
      if gap.isBroken && cursor.column < margin && c == '\t' then none
      else readPlain inFlow margin text (gap.pushBlank c) cursor.next
    else if isBreak c then readPlain inFlow margin text (gap.pushBreak c) cursor.next
    else if gap.isBroken && !inFlow && cursor.column < margin then stop
    else if cursor.atDocumentMarker then stop
    else if c == '#' && !(gap matches .closed) then stop
    else if spoilsPlain inFlow c rest.head? then none
    else if endsPlain inFlow c rest.head? then stop
    else readPlain inFlow margin (text ++ gap.text ++ [c]) .closed cursor.next
termination_by cursor.rest.length
decreasing_by all_goals simp [Cursor.length_rest_next, _h]

/-! ## Quoted scalars -/

/-- Reads on in a single quoted scalar, in which two quotes stand for one. -/
def readSingleQuoted (text : List Char) (gap : Gap) (cursor : Cursor) : Option ScalarRead :=
  match _h : cursor.rest with
  | [] => none
  | c :: rest =>
    if isBlank c then readSingleQuoted text (gap.pushBlank c) cursor.next
    else if isBreak c then readSingleQuoted text (gap.pushBreak c) cursor.next
    else if cursor.atDocumentMarker then none
    else if c == '\x27' then
      if rest.head? = some '\x27' then
        readSingleQuoted (text ++ gap.text ++ [c]) .closed cursor.next.next
      else some ⟨String.ofList (text ++ gap.text), cursor.next, false⟩
    else readSingleQuoted (text ++ gap.text ++ [c]) .closed cursor.next
termination_by cursor.rest.length
decreasing_by all_goals simp [Cursor.length_rest_next, _h]; try omega

/-- The character that a one-letter escape stands for. -/
def escaped? (c : Char) : Option Char :=
  [('0', 0x00), ('a', 0x07), ('b', 0x08), ('t', 0x09), ('\t', 0x09), ('n', 0x0A), ('v', 0x0B),
    ('f', 0x0C), ('r', 0x0D), ('e', 0x1B), (' ', 0x20), ('\x22', 0x22), ('/', 0x2F),
    ('\\', 0x5C), ('N', 0x85), ('_', 0xA0), ('L', 0x2028), ('P', 0x2029)].lookup c
    |>.map Char.ofNat

/-- The number of hexadecimal digits after an escape for a code point. -/
def codeLength? (c : Char) : Option Nat := [('x', 2), ('u', 4), ('U', 8)].lookup c

def hexValue? (c : Char) : Option Nat :=
  if '0' ≤ c && c ≤ '9' then some (c.toNat - 48)
  else if 'a' ≤ c && c ≤ 'f' then some (c.toNat - 87)
  else if 'A' ≤ c && c ≤ 'F' then some (c.toNat - 55)
  else none

/-- The character of a code point written in hexadecimal. -/
def codePoint? (digits : List Char) (length : Nat) : Option Char :=
  if digits.length = length then
    match digits.mapM hexValue? with
    | none => none
    | some values =>
      let code := values.foldl (fun n d => n * 16 + d) 0
      if code.isValidChar then some (Char.ofNat code) else none
  else none

/-- Reads on in a double quoted scalar, in which a backslash starts an escape; before a line
break it joins two lines. -/
def readDoubleQuoted (text : List Char) (gap : Gap) (cursor : Cursor) : Option ScalarRead :=
  match _h : cursor.rest with
  | [] => none
  | c :: rest =>
    if isBlank c then readDoubleQuoted text (gap.pushBlank c) cursor.next
    else if isBreak c then readDoubleQuoted text (gap.pushBreak c) cursor.next
    else if cursor.atDocumentMarker then none
    else if c == '\x22' then some ⟨String.ofList (text ++ gap.text), cursor.next, false⟩
    else if c == '\\' then
      match rest with
      | [] => none
      | e :: digits =>
        if isBreak e then
          readDoubleQuoted (text ++ gap.text) (.broken none []) cursor.next.next
        else
          match escaped? e, codeLength? e with
          | some stands, _ => readDoubleQuoted (text ++ gap.text ++ [stands]) .closed cursor.next.next
          | none, some length =>
            match codePoint? (digits.take length) length with
            | none => none
            | some stands =>
              readDoubleQuoted (text ++ gap.text ++ [stands]) .closed
                (Cursor.skip length cursor.next.next)
          | none, none => none
    else readDoubleQuoted (text ++ gap.text ++ [c]) .closed cursor.next
termination_by cursor.rest.length
decreasing_by all_goals simp [Cursor.length_rest_next, Cursor.length_rest_skip, _h]; try omega

/-! ## Block scalars -/

/-- What becomes of the line breaks at the end of a block scalar. -/
inductive Chomping where
  | strip
  /-- The first is kept. -/
  | clip
  | keep
deriving DecidableEq

/-- The first line of a block scalar: how its lines end and, if told, how far they are
indented beyond the block around them. -/
structure BlockHeader where
  chomping : Chomping
  increment : Option Nat

/-- The chomping that a sign stands for. -/
def chomping? (c : Char) : Option Chomping :=
  if c == '+' then some .keep else if c == '-' then some .strip else none

/-- The indentation that a digit stands for; it is never zero. -/
def increment? (c : Char) : Option Nat :=
  if '1' ≤ c && c ≤ '9' then some (c.toNat - 48) else none

/-- The header of a block scalar, from its signs in either order. -/
def blockHeader? : List Char → Option BlockHeader
  | [] => some ⟨.clip, none⟩
  | [c] =>
    match chomping? c, increment? c with
    | some chomping, _ => some ⟨chomping, none⟩
    | none, some increment => some ⟨.clip, some increment⟩
    | none, none => none
  | [c, d] =>
    match chomping? c, increment? d, increment? c, chomping? d with
    | some chomping, some increment, _, _ => some ⟨chomping, some increment⟩
    | _, _, some increment, some chomping => some ⟨chomping, some increment⟩
    | _, _, _, _ => none
  | _ => none

/-- A line: its characters, and the break that ends it. -/
structure Line where
  chars : List Char
  /-- The break; the last line may have none. -/
  ending : Option Char

/-- The lines of a text. -/
def linesOf : List Char → List Line
  | [] => [⟨[], none⟩]
  | c :: rest =>
    if isBreak c then ⟨[], some c⟩ :: linesOf rest
    else
      match linesOf rest with
      | [] => [⟨[c], none⟩]
      | line :: more => ⟨c :: line.chars, line.ending⟩ :: more

/-- Empty lines at the front of some lines. -/
structure EmptyLines where
  breaks : List Char
  /-- The number of characters they take. -/
  length : Nat
  /-- The most spaces seen, those of the line after them included. -/
  widest : Nat
  /-- The spaces at the start of the line after them. -/
  spaces : Nat
  rest : List Line

/-- The spaces at the start of a line, no more than the indentation if it is known. -/
def indentingSpaces (indent : Option Nat) (line : Line) : Nat :=
  let spaces := (line.chars.takeWhile (· == ' ')).length
  match indent with
  | none => spaces
  | some n => min n spaces

/-- True at a tab that stands where a space should indent. -/
def isMisplacedTab (indent : Option Nat) (spaces : Nat) (c : Char) : Bool :=
  c == '\t' && indent.all (spaces < ·)

/-- Takes the empty lines in front. With an indentation, no more spaces than that count as
empty. A tab where a space should indent is refused. -/
def takeEmptyLines (indent : Option Nat) : List Line → Option EmptyLines
  | [] => some ⟨[], 0, 0, 0, []⟩
  | line :: more =>
    let spaces := indentingSpaces indent line
    match line.chars.drop spaces, line.ending with
    | [], some c =>
      (takeEmptyLines indent more).map fun found =>
        { found with
          breaks := c :: found.breaks
          length := found.length + line.chars.length + 1
          widest := max spaces found.widest }
    | [], none => some ⟨[], 0, spaces, spaces, line :: more⟩
    | c :: _, _ =>
      if isMisplacedTab indent spaces c then none
      else some ⟨[], 0, spaces, spaces, line :: more⟩

theorem length_rest_takeEmptyLines {indent : Option Nat} {lines : List Line} {found : EmptyLines}
    (h : takeEmptyLines indent lines = some found) : found.rest.length ≤ lines.length := by
  induction lines generalizing found with
  | nil =>
    obtain rfl := Option.some.inj h
    exact Nat.le_refl _
  | cons line more ih =>
    simp only [takeEmptyLines] at h
    split at h
    · obtain ⟨inner, hinner, rfl⟩ := Option.map_eq_some_iff.1 h
      have := ih hinner
      exact Nat.le_succ_of_le this
    · obtain rfl := Option.some.inj h
      exact Nat.le_refl _
    · split at h
      · cases h
      · obtain rfl := Option.some.inj h
        exact Nat.le_refl _

/-- The content of a block scalar that is being read. -/
structure BlockText where
  /-- The text so far, without the breaks that are still open. -/
  text : List Char
  /-- The break after the last line. -/
  leading : Option Char
  /-- The breaks of the empty lines after it. -/
  trailing : List Char
  blankStart : Bool

namespace BlockText

/-- What the open breaks contribute before a further line. When folding, a single break
between two lines that start with no blank becomes a space. -/
def joint (literal : Bool) (block : BlockText) (blankStart : Bool) : List Char :=
  let first :=
    if !literal && block.leading == some '\n' && !block.blankStart && !blankStart then
      if block.trailing.isEmpty then [' '] else []
    else block.leading.toList
  first ++ block.trailing

/-- The whole text, its last breaks chomped. -/
def close (chomping : Chomping) (block : BlockText) : List Char :=
  match chomping with
  | .strip => block.text
  | .clip => block.text ++ block.leading.toList
  | .keep => block.text ++ block.leading.toList ++ block.trailing

end BlockText

/-- Reads the lines that are indented by `indent`, the empty lines in front having been taken.
The answer holds the number of characters taken. -/
def readBlockLines (literal : Bool) (indent : Nat) (block : BlockText) (taken : Nat)
    (found : EmptyLines) : Option (BlockText × Nat) :=
  let block := { block with trailing := found.breaks }
  let taken := taken + found.length
  match _hrest : found.rest with
  | [] => some (block, taken + found.spaces)
  | line :: more =>
    let content := line.chars.drop indent
    let blankStart := content.head?.any isBlank
    let text := block.text ++ block.joint literal blankStart ++ content
    if found.spaces ≠ indent || content.isEmpty then some (block, taken + found.spaces)
    else
      match line.ending with
      | none => some (⟨text, none, [], blankStart⟩, taken + line.chars.length)
      | some c =>
        match _hfound : takeEmptyLines (some indent) more with
        | none => none
        | some found' =>
          readBlockLines literal indent ⟨text, some c, [], blankStart⟩
            (taken + line.chars.length + 1) found'
termination_by found.rest.length
decreasing_by
  have := length_rest_takeEmptyLines _hfound
  simp only [_hrest, List.length_cons]
  omega

/-- Reads a block scalar, from the sign that says whether its lines are kept or folded. Its
lines are indented to column `margin` at least. -/
def readBlock (literal : Bool) (margin : Nat) (cursor : Cursor) : Option ScalarRead :=
  let header := (cursor.rest.drop 1).takeWhile fun c => !isBlank c && !isBreak c && c != '#'
  match blockHeader? header with
  | none => none
  | some ⟨chomping, increment⟩ =>
    let afterHeader := Cursor.skip (header.length + 1) cursor
    let afterBlanks := Cursor.skip (afterHeader.rest.takeWhile isBlank).length afterHeader
    if afterBlanks.peek.any fun c => !isBreak c && c != '#' then none
    else
      let atEnd := Cursor.skip (afterBlanks.rest.takeWhile fun c => !isBreak c).length afterBlanks
      let start := atEnd.next
      let told := increment.map (margin - 1 + ·)
      match takeEmptyLines told (linesOf start.rest) with
      | none => none
      | some found =>
        let indent := told.getD (max found.widest (max margin 1))
        match readBlockLines literal indent ⟨[], none, [], false⟩ 0 found with
        | none => none
        | some (block, taken) =>
          some ⟨String.ofList (block.close chomping), Cursor.skip taken start, true⟩

end Provision.Yaml
