/-
  Provision.Net.IpAddress

  IP addresses and their literals. `ofText?` reads dotted IPv4 and the IPv6 forms
  (full, elided by `::`, and with a dotted tail); `text` writes the usual short
  form, eliding the first longest run of at least two zero groups.
-/

namespace Provision

/-- An IP address of either family. -/
inductive IpAddress where
  | v4 (a b c d : UInt8)
  | v6 (groups : Vector UInt16 8)
deriving DecidableEq

namespace IpAddress

def isV4 : IpAddress → Bool
  | v4 .. => true
  | v6 _ => false

/-! ## Reading literals -/

/-- The parts of a text between separators; there is one more than separators. -/
def fields (separator : Char) : List Char → List (List Char)
  | [] => [[]]
  | c :: rest =>
    if c = separator then [] :: fields separator rest
    else
      match fields separator rest with
      | [] => [[c]]
      | field :: more => (c :: field) :: more

/-- One octet: one to three digits, at most 255, and no zero in front. -/
def octet? (cs : List Char) : Option UInt8 :=
  let value := cs.foldl (fun n c => n * 10 + (c.toNat - 48)) 0
  if cs.all Char.isDigit && 1 ≤ cs.length && cs.length ≤ 3 && value ≤ 255 &&
      (cs.length == 1 || cs.head? != some '0') then
    some (UInt8.ofNat value)
  else none

def hexDigit? (c : Char) : Option Nat :=
  if '0' ≤ c && c ≤ '9' then some (c.toNat - 48)
  else if 'a' ≤ c && c ≤ 'f' then some (c.toNat - 87)
  else if 'A' ≤ c && c ≤ 'F' then some (c.toNat - 55)
  else none

/-- One group: one to four hexadecimal digits. -/
def group? (cs : List Char) : Option UInt16 :=
  if 1 ≤ cs.length && cs.length ≤ 4 then
    (cs.mapM hexDigit?).map fun digits => UInt16.ofNat (digits.foldl (fun n d => n * 16 + d) 0)
  else none

def octets? (cs : List Char) : Option (UInt8 × UInt8 × UInt8 × UInt8) :=
  match (fields '.' cs).mapM octet? with
  | some [a, b, c, d] => some (a, b, c, d)
  | _ => none

/-- Two octets as one group, high octet first. -/
def pair (high low : UInt8) : UInt16 := UInt16.ofNat (high.toNat * 256 + low.toNat)

/-- The groups of a run of fields; a dotted IPv4 literal may stand last, for two groups. -/
def tailGroups? : List (List Char) → Option (List UInt16)
  | [] => some []
  | [last] =>
    match octets? last with
    | some (a, b, c, d) => some [pair a b, pair c d]
    | none => (group? last).map ([·])
  | field :: more =>
    match group? field, tailGroups? more with
    | some g, some gs => some (g :: gs)
    | _, _ => none

/-- The text before and after the first `::`. -/
def splitElision? : List Char → Option (List Char × List Char)
  | ':' :: ':' :: rest => some ([], rest)
  | [] => none
  | c :: rest => (splitElision? rest).map fun (front, back) => (c :: front, back)

/-- The fields of one side of an elision; nothing at all is no field. -/
def sideFields (cs : List Char) : List (List Char) := if cs.isEmpty then [] else fields ':' cs

/-- The groups of an IPv6 literal. An elision stands for at least one group. -/
def groups? (cs : List Char) : Option (List UInt16) :=
  match splitElision? cs with
  | none => tailGroups? (fields ':' cs)
  | some (front, back) =>
    match (sideFields front).mapM group?, tailGroups? (sideFields back) with
    | some gs, some hs =>
      if gs.length + hs.length ≤ 7 then
        some (gs ++ List.replicate (8 - (gs.length + hs.length)) 0 ++ hs)
      else none
    | _, _ => none

/-- Reads an address literal of either family. -/
def ofText? (text : String) : Option IpAddress :=
  match octets? text.toList with
  | some (a, b, c, d) => some (v4 a b c d)
  | none =>
    match groups? text.toList with
    | some gs => if h : gs.length = 8 then some (v6 ⟨gs.toArray, by simpa using h⟩) else none
    | none => none

/-! ## Writing -/

def dotted (a b c d : UInt8) : String :=
  toString a.toNat ++ "." ++ toString b.toNat ++ "." ++ toString c.toNat ++ "." ++
    toString d.toNat

def colons (gs : List UInt16) : String :=
  ":".intercalate (gs.map fun g => String.ofList (Nat.toDigits 16 g.toNat))

/-- The start and length of the first longest run of zero groups. -/
def longestZeroRun (gs : List UInt16) : Nat × Nat :=
  (List.range gs.length).foldl (fun best start =>
    let run := ((gs.drop start).takeWhile (· == 0)).length
    if best.2 < run then (start, run) else best) (0, 0)

/-- The text of eight groups. An IPv4-mapped address keeps its dotted tail. -/
def groupsText (gs : List UInt16) : String :=
  match gs with
  | [0, 0, 0, 0, 0, 0xFFFF, high, low] =>
    "::ffff:" ++ dotted (UInt8.ofNat (high.toNat / 256)) (UInt8.ofNat (high.toNat % 256))
      (UInt8.ofNat (low.toNat / 256)) (UInt8.ofNat (low.toNat % 256))
  | _ =>
    let (start, run) := longestZeroRun gs
    if 1 < run then colons (gs.take start) ++ "::" ++ colons (gs.drop (start + run))
    else colons gs

/-- The usual short text of an address. -/
def text : IpAddress → String
  | v4 a b c d => dotted a b c d
  | v6 groups => groupsText groups.toList

end IpAddress

end Provision
