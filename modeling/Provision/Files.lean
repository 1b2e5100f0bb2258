/-
  Provision.Files

  The files that a device can read, by name. No file has the empty name.
-/
import Provision.Text.Utf8
import Provision.Report

namespace Provision

/-- The files within reach. -/
structure Files where
  /-- What the file of a name holds, if there is one. -/
  content : String → Option Bytes

namespace Files

def none : Files := ⟨fun _ => Option.none⟩

def read (files : Files) (name : String) : Except SystemFault Bytes :=
  if name = "" then .error .notFound
  else
    match files.content name with
    | Option.none => .error .notFound
    | some bytes => .ok bytes

/-- Reads a file that must hold text. -/
def readText (files : Files) (name : String) : Except SystemFault String :=
  match files.read name with
  | .error fault => .error fault
  | .ok bytes =>
    match Utf8.decode? bytes with
    | Option.none => .error .invalidData
    | some text => .ok text

end Files

end Provision
