/-
  Provision.Yaml.Token.Lexer

  The tokens of a stream of characters. Whether a scalar or a collection is a key shows
  only at the colon after it, so the lexer remembers where the last possible key started
  and puts the key's token in front of it later. Such a key lies within one line and is
  at most 1024 characters long; where the block demands a key, its absence is an error.
-/
import Provision.Yaml.Scalar
import Provision.Yaml.Token

namespace Provision.Yaml

/-- A place where a key may have started. -/
structure PendingKey where
  /-- True when the block around it demands a key here. -/
  required : Bool
  /-- The number of tokens before it. -/
  position : Nat
  start : Cursor

namespace PendingKey

/-- Most characters in a key that is not marked as one. -/
def maxLength : Nat := 1024

/-- True once the place is too far behind to be a key's. -/
def isStale (key : PendingKey) (cursor : Cursor) : Bool :=
  key.start.line < cursor.line || key.start.index + maxLength < cursor.index

end PendingKey

/-- The state of the lexer between two tokens. -/
structure Lexer where
  cursor : Cursor
  /-- The tokens found, last one first. -/
  emitted : List Token
  /-- The least column of content in each open block, the innermost first. -/
  margins : List Nat
  /-- The possible key in the innermost flow collection, or in the block around all. -/
  key : Option PendingKey
  /-- The possible keys further out, one for each open flow collection. -/
  outerKeys : List (Option PendingKey)
  keyAllowed : Bool

namespace Lexer

def ofChars (chars : List Char) : Lexer := ⟨Cursor.ofChars chars, [], [], none, [], true⟩

/-- True inside a flow collection, where indentation means nothing. -/
def inFlow (lexer : Lexer) : Bool := !lexer.outerKeys.isEmpty

/-- The least column of content in the innermost block. -/
def margin (lexer : Lexer) : Nat := lexer.margins.headD 0

def emit (lexer : Lexer) (token : Token) : Lexer := { lexer with emitted := token :: lexer.emitted }

/-- Puts tokens where `position` tokens stand before them. -/
def insert (lexer : Lexer) (position : Nat) (tokens : List Token) : Lexer :=
  let later := lexer.emitted.length - position
  { lexer with
    emitted := lexer.emitted.take later ++ tokens.reverse ++ lexer.emitted.drop later }

def skip (lexer : Lexer) (count : Nat) : Lexer :=
  { lexer with cursor := Cursor.skip count lexer.cursor }

/-! ## Blocks -/

/-- Ends the blocks whose content must stand further right than `limit`. -/
def closeBlocks (lexer : Lexer) (limit : Nat) : Lexer :=
  if lexer.inFlow then lexer
  else
    let ended := lexer.margins.takeWhile (limit < ·)
    { lexer with
      emitted := List.replicate ended.length .blockEnd ++ lexer.emitted
      margins := lexer.margins.drop ended.length }

/-- True when content at a column is the first of a new block. -/
def opensBlock (lexer : Lexer) (column : Nat) : Bool := !lexer.inFlow && lexer.margin ≤ column

/-- Starts a block here if the column asks for one. -/
def openBlock (lexer : Lexer) (start : Token) : Lexer :=
  let column := lexer.cursor.column
  if lexer.opensBlock column then
    { lexer.emit start with margins := (column + 1) :: lexer.margins }
  else lexer

/-! ## Possible keys -/

/-- Gives up the possible key, unless it is demanded. -/
def dropKey (lexer : Lexer) : Option Lexer :=
  match lexer.key with
  | none => some lexer
  | some key => if key.required then none else some { lexer with key := none }

/-- Remembers that a key may start here. -/
def saveKey (lexer : Lexer) : Option Lexer :=
  if lexer.keyAllowed then
    lexer.dropKey.map fun lexer =>
      { lexer with
        key := some
          { required := !lexer.inFlow && lexer.margin == lexer.cursor.column + 1
            position := lexer.emitted.length
            start := lexer.cursor } }
  else some lexer

/-- Gives up a possible key that is too far behind. -/
def dropStale (cursor : Cursor) (key : Option PendingKey) : Option (Option PendingKey) :=
  match key with
  | none => some none
  | some key =>
    if key.isStale cursor then (if key.required then none else some none) else some (some key)

/-- Gives up all possible keys that are too far behind. -/
def dropStaleKeys (lexer : Lexer) : Option Lexer :=
  match dropStale lexer.cursor lexer.key, lexer.outerKeys.mapM (dropStale lexer.cursor) with
  | some key, some outerKeys => some { lexer with key := key, outerKeys := outerKeys }
  | _, _ => none

/-! ## Single tokens -/

/-- Finds a token of a single character after which a key may start or not. -/
def single (lexer : Lexer) (token : Token) (keyAllowed : Bool) : Lexer :=
  { (lexer.skip 1).emit token with keyAllowed := keyAllowed }

/-- A marker of three characters around a document. -/
def documentMarker (lexer : Lexer) (token : Token) : Option Lexer :=
  (lexer.closeBlocks 0).dropKey.map fun lexer =>
    { (lexer.skip 3).emit token with keyAllowed := false }

/-- The opening bracket of a flow collection, which may itself be a key. -/
def flowStart (lexer : Lexer) (token : Token) : Option Lexer :=
  lexer.saveKey.map fun lexer =>
    { lexer.single token true with key := none, outerKeys := lexer.key :: lexer.outerKeys }

def flowEnd (lexer : Lexer) (token : Token) : Option Lexer :=
  lexer.dropKey.map fun lexer =>
    match lexer.outerKeys with
    | [] => lexer.single token false
    | key :: outerKeys => { lexer.single token false with key := key, outerKeys := outerKeys }

def flowEntry (lexer : Lexer) : Option Lexer :=
  lexer.dropKey.map fun lexer => lexer.single .flowEntry true

def blockEntry (lexer : Lexer) : Option Lexer :=
  if !lexer.inFlow && !lexer.keyAllowed then none
  else (lexer.openBlock .blockSequenceStart).dropKey.map fun lexer => lexer.single .blockEntry true

def explicitKey (lexer : Lexer) : Option Lexer :=
  if !lexer.inFlow && !lexer.keyAllowed then none
  else
    (lexer.openBlock .blockMappingStart).dropKey.map fun lexer =>
      lexer.single .key (!lexer.inFlow)

/-- The colon before a value. What was remembered as a possible key is one now. -/
def valueMark (lexer : Lexer) : Option Lexer :=
  match lexer.key with
  | some key =>
    -- the block of a key starts where the key does, which lies before the tokens of the key
    let column := key.start.column
    let lexer :=
      if lexer.opensBlock column then
        { lexer.insert key.position [.blockMappingStart, .key] with
          margins := (column + 1) :: lexer.margins }
      else lexer.insert key.position [.key]
    some { lexer.single .value false with key := none }
  | none =>
    if lexer.inFlow then some (lexer.single .value false)
    else if lexer.keyAllowed then some ((lexer.openBlock .blockMappingStart).single .value true)
    else none

/-- A scalar that may be a key. -/
def inlineScalar (lexer : Lexer) (plain : Bool) (read : Cursor → Option ScalarRead) :
    Option Lexer :=
  match lexer.saveKey with
  | none => none
  | some lexer =>
    (read lexer.cursor).map fun found =>
      { lexer.emit (.scalar found.text plain) with
        cursor := found.cursor
        keyAllowed := found.brokeLine }

/-- A block scalar, which is never a key. -/
def blockScalar (lexer : Lexer) (literal : Bool) : Option Lexer :=
  match lexer.dropKey with
  | none => none
  | some lexer =>
    (readBlock literal lexer.margin lexer.cursor).map fun found =>
      { lexer.emit (.scalar found.text false) with
        cursor := found.cursor
        keyAllowed := found.brokeLine }

/-! ## Directives -/

/-- The value of a run of one to nine digits at the front, and what follows it. -/
def number? (chars : List Char) : Option (Nat × List Char) :=
  let digits := chars.takeWhile Char.isDigit
  if digits.isEmpty || 9 < digits.length then none
  else some (digits.foldl (fun n c => n * 10 + (c.toNat - 48)) 0, chars.drop digits.length)

/-- True for the text of a directive that names version 1.1 or 1.2 of the language. -/
def isVersionDirective (text : List Char) : Bool :=
  text.take 5 == ['%', 'Y', 'A', 'M', 'L'] && (text[5]?.any isBlank) &&
    match number? ((text.drop 5).dropWhile isBlank) with
    | some (1, '.' :: rest) =>
      match number? rest with
      | some (minor, rest) =>
        (minor == 1 || minor == 2) && ((rest.dropWhile isBlank).head?.all (· == '#'))
      | none => false
    | _ => false

/-- A directive; only the one for the version is known. -/
def directive (lexer : Lexer) : Option Lexer :=
  let text := lexer.cursor.rest.takeWhile fun c => !isBreak c
  if isVersionDirective text then
    (lexer.closeBlocks 0).dropKey.map fun lexer =>
      { (lexer.skip text.length).emit .versionDirective with keyAllowed := false }
  else none

/-! ## Whole streams -/

/-- Steps over blanks, comments and line breaks. Where a key may start a tab does not count
as a blank; on a new line of a block a key may start. -/
def skipToToken (inFlow keyAllowed inComment : Bool) (cursor : Cursor) : Cursor × Bool :=
  match _h : cursor.rest with
  | [] => (cursor, keyAllowed)
  | c :: _ =>
    if isBreak c then skipToToken inFlow (keyAllowed || !inFlow) false cursor.next
    else if inComment then skipToToken inFlow keyAllowed true cursor.next
    else if c == ' ' || (c == '\t' && (inFlow || !keyAllowed)) then
      skipToToken inFlow keyAllowed false cursor.next
    else if c == '#' then skipToToken inFlow keyAllowed true cursor.next
    else (cursor, keyAllowed)
termination_by cursor.rest.length
decreasing_by all_goals simp [Cursor.length_rest_next, _h]

/-- Goes to the next token, ending the blocks and giving up the keys that are passed. -/
def approach (lexer : Lexer) : Option Lexer :=
  let (cursor, keyAllowed) := skipToToken lexer.inFlow lexer.keyAllowed false lexer.cursor
  let lexer := { lexer with cursor := cursor, keyAllowed := keyAllowed }
  lexer.dropStaleKeys.map fun lexer => lexer.closeBlocks (lexer.cursor.column + 1)

/-- The signs that never start a plain scalar. -/
def reserved : List Char := ['#', '&', '*', '!', '|', '>', '\x27', '\x22', '%', '@', '\x60']

/-- True at a character that starts a plain scalar. -/
def startsPlain (inFlow : Bool) (c : Char) (following : Option Char) : Bool :=
  if c == '-' then !following.any isBlank
  else if c == '?' || c == ':' then !inFlow && !endsWord following
  else !isBlank c && !isFlowIndicator c && !reserved.contains c

/-- Finds the token that starts with `c`. -/
def token (lexer : Lexer) (c : Char) : Option Lexer :=
  let following := lexer.cursor.peekNext
  -- what stands at the start of a line goes before everything else
  if lexer.cursor.column == 0 && c == '%' then lexer.directive
  else if lexer.cursor.atMarker '-' then lexer.documentMarker .documentStart
  else if lexer.cursor.atMarker '.' then lexer.documentMarker .documentEnd
  else if c == '[' then lexer.flowStart .flowSequenceStart
  else if c == '{' then lexer.flowStart .flowMappingStart
  else if c == ']' then lexer.flowEnd .flowSequenceEnd
  else if c == '}' then lexer.flowEnd .flowMappingEnd
  else if c == ',' then lexer.flowEntry
  else if c == '-' && endsWord following then lexer.blockEntry
  else if c == '?' && (lexer.inFlow || endsWord following) then lexer.explicitKey
  else if c == ':' && (lexer.inFlow || endsWord following) then lexer.valueMark
  else if c == '|' && !lexer.inFlow then lexer.blockScalar true
  else if c == '>' && !lexer.inFlow then lexer.blockScalar false
  else if c == '\x27' then
    lexer.inlineScalar false fun cursor => readSingleQuoted [] .closed cursor.next
  else if c == '\x22' then
    lexer.inlineScalar false fun cursor => readDoubleQuoted [] .closed cursor.next
  else if startsPlain lexer.inFlow c following then
    lexer.inlineScalar true fun cursor => readPlain lexer.inFlow lexer.margin [] .closed cursor
  else none

/-- Finds tokens to the end of the stream. Every token takes at least one character, so
`bound` need not exceed their number by more than one. -/
def run : Nat → Lexer → Option (List Token)
  | 0, _ => none
  | bound + 1, lexer =>
    match lexer.approach with
    | none => none
    | some lexer =>
      match lexer.cursor.peek with
      | none => (lexer.closeBlocks 0).dropKey.map fun lexer => lexer.emitted.reverse
      | some c =>
        match lexer.token c with
        | none => none
        | some lexer' => run bound lexer'

end Lexer

def tokens? (chars : List Char) : Option (List Token) :=
  (Lexer.ofChars chars).run (chars.length + 1)

end Provision.Yaml
