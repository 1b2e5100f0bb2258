/-
  Provision.Http.Response

  What is sent back: the fixed answers for the three failures, and the head of a
  page, from its status line through the navigation menu. Both the length that a head
  announces and the bytes that it takes itself are counted before it is put together. A
  head that does not fit is refused with its exact length, never cut.
-/
import Provision.Text.Utf8

namespace Provision.Http

/-- The status of an answer. -/
inductive Status where
  | ok
  | badRequest
  | notFound
  | internalServerError
deriving DecidableEq, Repr

namespace Status

def code : Status → Nat
  | ok => 200
  | badRequest => 400
  | notFound => 404
  | internalServerError => 500

def reason : Status → String
  | ok => "OK"
  | badRequest => "Bad Request"
  | notFound => "Not Found"
  | internalServerError => "Internal Server Error"

def line (status : Status) : String :=
  "HTTP/1.1 " ++ toString status.code ++ " " ++ status.reason ++ "\r\n"

end Status

/-- Why a page could not be composed. -/
inductive ResponseError where
  | menuTooLarge (capacity : Nat)
  | headTooLarge (needed capacity : Nat)
deriving DecidableEq

namespace ResponseError

def message : ResponseError → String
  | menuTooLarge capacity => "menu does not fit in " ++ toString capacity ++ " bytes"
  | headTooLarge needed capacity =>
    "response header of " ++ toString needed ++ " bytes does not fit in " ++ toString capacity ++
      " bytes"

end ResponseError

namespace Response

/-! ## Pages -/

def contentType : String := "Content-Type: text/html; charset=UTF-8\r\n"

def contentLengthLine (length : Nat) : String := "Content-Length: " ++ toString length ++ "\r\n"

def pageStart : String := "<html>\n<head>\n<title>"

def titleEnd : String := "</title>\n</head>\n<body>\n"

/-- The length that is announced for a page whose body has `bodyLength` bytes. It covers the
part of the page that the head holds as well. -/
def contentLength (bodyLength : Nat) (title menu : String) : Nat :=
  bodyLength + pageStart.utf8ByteSize + title.utf8ByteSize + titleEnd.utf8ByteSize +
    menu.utf8ByteSize

/-- The bytes that the head of a page will take, counted before it is put together. -/
def headLength (bodyLength : Nat) (title menu : String) : Nat :=
  Status.ok.line.utf8ByteSize +
    (contentLengthLine (contentLength bodyLength title menu)).utf8ByteSize +
    contentType.utf8ByteSize + 2 + pageStart.utf8ByteSize + title.utf8ByteSize +
    titleEnd.utf8ByteSize + menu.utf8ByteSize

/-- The head of a page whose body has `bodyLength` bytes. -/
def headText (bodyLength : Nat) (title menu : String) : String :=
  Status.ok.line ++ contentLengthLine (contentLength bodyLength title menu) ++ contentType ++
    "\r\n" ++ pageStart ++ title ++ titleEnd ++ menu

/-- The head of a page, if it fits. -/
def head (bodyLength : Nat) (title menu : String) (capacity : Nat) : Except ResponseError Bytes :=
  let needed := headLength bodyLength title menu
  if needed ≤ capacity then .ok (utf8 (headText bodyLength title menu))
  else .error (.headTooLarge needed capacity)

/-! ## Fixed answers -/

def fixedBody (status : Status) : String :=
  let label := toString status.code ++ " " ++ status.reason
  "<html><head><title>" ++ label ++ "</title></head>\n<body><center><h1>" ++ label ++
    "</h1></center></body></html>"

/-- The whole answer that reports a failure. -/
def fixed (status : Status) : Bytes :=
  utf8 (status.line ++ contentLengthLine (fixedBody status).utf8ByteSize ++ contentType ++
    "Connection: close\r\n\r\n" ++ fixedBody status)

end Response

end Provision.Http
