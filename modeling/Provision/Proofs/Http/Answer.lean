/-
  Provision.Proofs.Http.Answer

  The answers as they stand on the wire, written out: the three that report a failure, and a
  page. They are the bytes that are composed for them (`Response.fixed_badRequest` and its
  like, `Response.headText_eq`), and the two lengths that are counted before a head is put
  together are those of its text: the one that it announces (`Response.contentLength_eq`) and
  the one that it needs room for (`Response.headLength_eq`).
-/
import Provision.Http.Response

namespace Provision.Http

namespace Answer

/-! ## The answers that report a failure -/

def badRequest : Bytes := utf8 <|
  "HTTP/1.1 400 Bad Request\r\n" ++
  "Content-Length: 111\r\n" ++
  "Content-Type: text/html; charset=UTF-8\r\n" ++
  "Connection: close\r\n" ++
  "\r\n" ++
  "<html><head><title>400 Bad Request</title></head>\n" ++
  "<body><center><h1>400 Bad Request</h1></center></body></html>"

def notFound : Bytes := utf8 <|
  "HTTP/1.1 404 Not Found\r\n" ++
  "Content-Length: 107\r\n" ++
  "Content-Type: text/html; charset=UTF-8\r\n" ++
  "Connection: close\r\n" ++
  "\r\n" ++
  "<html><head><title>404 Not Found</title></head>\n" ++
  "<body><center><h1>404 Not Found</h1></center></body></html>"

def internalServerError : Bytes := utf8 <|
  "HTTP/1.1 500 Internal Server Error\r\n" ++
  "Content-Length: 131\r\n" ++
  "Content-Type: text/html; charset=UTF-8\r\n" ++
  "Connection: close\r\n" ++
  "\r\n" ++
  "<html><head><title>500 Internal Server Error</title></head>\n" ++
  "<body><center><h1>500 Internal Server Error</h1></center></body></html>"

/-! ## Pages -/

/-- The content of a page up to its body: the title and the menu. -/
def opening (title menu : String) : String :=
  "<html>\n<head>\n<title>" ++ title ++ "</title>\n</head>\n<body>\n" ++ menu

/-- The head of a page: the header, which announces the length of the content, and the content
    up to the body. -/
def head (bodyLength : Nat) (title menu : String) : String :=
  "HTTP/1.1 200 OK\r\n" ++
  ("Content-Length: " ++ toString ((opening title menu).utf8ByteSize + bodyLength) ++ "\r\n") ++
  "Content-Type: text/html; charset=UTF-8\r\n" ++
  "\r\n" ++
  opening title menu

/-- A whole page. -/
def page (title menu body : String) : Bytes := utf8 (head body.utf8ByteSize title menu ++ body)

end Answer

/-! ## What is composed -/

namespace Response

theorem fixed_badRequest : fixed .badRequest = Answer.badRequest := by decide +kernel

theorem fixed_notFound : fixed .notFound = Answer.notFound := by decide +kernel

theorem fixed_internalServerError :
    fixed .internalServerError = Answer.internalServerError := by
  decide +kernel

variable (bodyLength : Nat) (title menu : String)

theorem opening_eq : Answer.opening title menu = pageStart ++ title ++ titleEnd ++ menu := by
  -- the texts are only put in place: comparing them by evaluation takes far longer
  delta Answer.opening pageStart titleEnd
  rfl

/-- The length that is announced is that of the content. -/
theorem contentLength_eq :
    contentLength bodyLength title menu =
      (Answer.opening title menu).utf8ByteSize + bodyLength := by
  rw [opening_eq, contentLength]
  simp only [String.utf8ByteSize_append]
  omega

theorem headText_eq : headText bodyLength title menu = Answer.head bodyLength title menu := by
  have hstatus : Status.ok.line = "HTTP/1.1 200 OK\r\n" := by decide +kernel
  delta headText contentLengthLine contentType Answer.head
  rw [contentLength_eq, hstatus, opening_eq]
  simp only [String.append_assoc]

/-- The room that is asked for is that of the head. -/
theorem headLength_eq :
    headLength bodyLength title menu = (Answer.head bodyLength title menu).utf8ByteSize := by
  have hbreak : "\r\n".utf8ByteSize = 2 := by decide +kernel
  rw [← headText_eq, headText, headLength]
  simp only [String.utf8ByteSize_append, hbreak]

/-- A head is composed if it fits, and refused with its exact length otherwise. -/
theorem head_eq (capacity : Nat) :
    head bodyLength title menu capacity =
      if (Answer.head bodyLength title menu).utf8ByteSize ≤ capacity then
        .ok (utf8 (Answer.head bodyLength title menu))
      else .error (.headTooLarge (Answer.head bodyLength title menu).utf8ByteSize capacity) := by
  rw [head, headLength_eq, headText_eq]

end Response

end Provision.Http
