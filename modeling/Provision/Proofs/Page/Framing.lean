/-
  Provision.Proofs.Page.Framing

  The framing of a page on the wire. A page is sent as a header and its content: the header
  ends at the first CR LF CR LF, and the number on its length line counts the bytes of
  everything behind it, title and menu included (`Answer.framed_page`). A page whose parts do
  not fit leaves no trace (`Handler.sendPage_framed`).
-/
import Provision.Proofs.Page.Visit
import Provision.Proofs.Text.Numeral

namespace Provision

namespace Http

/-! ## Headers made of lines -/

def crLf : Bytes := [Byte.cr, Byte.lf]

/-- The bytes are cut right after the first CR LF CR LF in them. -/
structure CutAtBlankLine (bytes header content : Bytes) : Prop where
  whole : bytes = header ++ content
  blank : crLf ++ crLf <:+ header
  first : ∀ n < header.length, ¬ crLf ++ crLf <:+ bytes.take n

/-- Lines as a header holds them: neither empty nor broken. -/
def IsLine (line : Bytes) : Prop := line ≠ [] ∧ ∀ b ∈ line, Byte.isBreak b = false

/-- The header that consists of some lines and the empty one. -/
def headerOf (lines : List Bytes) : Bytes := lines.flatMap (· ++ crLf) ++ crLf

theorem headerOf_cons (line : Bytes) (lines : List Bytes) :
    headerOf (line :: lines) = line ++ crLf ++ headerOf lines := by
  simp [headerOf]

/-- No line is empty, so a CR LF CR LF stands nowhere but at the end. -/
theorem eq_nil_of_headerOf_eq {lines : List Bytes} (h : ∀ line ∈ lines, IsLine line)
    {before after : Bytes} (heq : headerOf lines = before ++ (crLf ++ crLf) ++ after) :
    after = [] := by
  induction lines generalizing before with
  | nil =>
    have hlen := congrArg List.length heq
    simp only [headerOf, crLf, List.flatMap_nil, List.nil_append, List.length_append,
      List.length_cons, List.length_nil] at hlen
    omega
  | cons line lines ih =>
    rw [List.forall_mem_cons] at h
    obtain ⟨⟨-, hplain⟩, hlines⟩ := h
    -- where the second line break comes right after the first, no line stands between them
    have hnone : crLf ++ headerOf lines = crLf ++ crLf ++ after → after = [] := by
      intro htext
      rw [List.append_assoc, List.append_cancel_left_eq] at htext
      cases lines with
      | nil => exact List.append_right_eq_self.mp htext.symm
      | cons next lines =>
        obtain ⟨⟨hne, hnext⟩, -⟩ := List.forall_mem_cons.mp hlines
        obtain ⟨b, bytes, rfl⟩ := List.exists_cons_of_ne_nil hne
        rw [headerOf_cons] at htext
        obtain rfl : b = Byte.cr := (List.cons.inj htext).1
        exact absurd (hnext Byte.cr List.mem_cons_self) (by decide)
    rw [headerOf_cons, List.append_assoc, List.append_assoc] at heq
    rcases List.append_eq_append_iff.mp heq with ⟨gap, rfl, htext⟩ | ⟨gap, rfl, htext⟩
    · match gap with
      | [] => exact hnone (by simpa using htext)
      | [b] =>
        -- the line feed of the one would have to be the carriage return of the other
        have hlf := (List.cons.inj (List.cons.inj htext).2).1
        exact absurd hlf (by decide)
      | b :: c :: gap =>
        have hrest : headerOf lines = gap ++ (crLf ++ crLf) ++ after := by
          simpa using (List.cons.inj (List.cons.inj htext).2).2
        exact ih hlines hrest
    · match gap with
      | [] => exact hnone (by simpa using htext.symm)
      | b :: gap =>
        obtain rfl : Byte.cr = b := (List.cons.inj htext).1
        exact absurd (hplain Byte.cr (by simp)) (by decide)

/-- A response is cut behind the header that it begins with. -/
theorem cutAtBlankLine_headerOf {lines : List Bytes} (h : ∀ line ∈ lines, IsLine line)
    (hne : lines ≠ []) (content : Bytes) :
    CutAtBlankLine (headerOf lines ++ content) (headerOf lines) content := by
  refine ⟨rfl, ?_, fun n hn hblank => ?_⟩
  · obtain ⟨lines, last, rfl⟩ := (List.eq_nil_or_concat lines).resolve_left hne
    exact ⟨lines.flatMap (· ++ crLf) ++ last, by simp [headerOf]⟩
  · rw [List.take_append_of_le_length (Nat.le_of_lt hn)] at hblank
    obtain ⟨before, hbefore⟩ := hblank
    have hsplit := (List.take_append_drop n (headerOf lines)).symm
    rw [← hbefore] at hsplit
    have hnil := eq_nil_of_headerOf_eq h hsplit
    rw [List.drop_eq_nil_iff] at hnil
    omega

/-! ## The length that is announced -/

/-- The line announces a length, letter case ignored. -/
def announcesLength (line : Bytes) : Bool :=
  (utf8 "content-length:").isPrefixOf (line.map Byte.lower)

/-- The response is a header, which ends at the first blank line and has one line that
    announces a length, and then content of exactly that many bytes. -/
def Framed (response content : Bytes) : Prop :=
  ∃ lines digits, (∀ line ∈ lines, IsLine line) ∧
    CutAtBlankLine response (headerOf lines) content ∧
    lines.filter announcesLength = [utf8 "Content-Length: " ++ digits] ∧
    digits ≠ [] ∧ (∀ b ∈ digits, Byte.isDigit b = true) ∧ decimalValue digits = content.length

namespace Answer

/-- The lines of a page's header. -/
def headerLines (length : Nat) : List Bytes :=
  [utf8 "HTTP/1.1 200 OK", utf8 "Content-Length: " ++ numeral length,
    utf8 "Content-Type: text/html; charset=UTF-8"]

theorem isLine_of_mem_headerLines {length : Nat} :
    ∀ line ∈ headerLines length, IsLine line := by
  have hstatus : IsLine (utf8 "HTTP/1.1 200 OK") := by
    unfold IsLine
    decide +kernel
  have htype : IsLine (utf8 "Content-Type: text/html; charset=UTF-8") := by
    unfold IsLine
    decide +kernel
  have hname : ∀ b ∈ utf8 "Content-Length: ", Byte.isBreak b = false := by decide +kernel
  have hnumber : ∀ b ∈ numeral length, Byte.isBreak b = false := by
    intro b hb
    have hdigit := isDigit_of_mem_numeral length b hb
    by_contra hbreak
    simp only [Byte.isBreak, Bool.not_eq_false, Bool.or_eq_true, beq_iff_eq] at hbreak
    rcases hbreak with rfl | rfl <;> exact absurd hdigit (by decide)
  intro line hline
  simp only [headerLines, List.mem_cons, List.not_mem_nil, or_false] at hline
  rcases hline with rfl | rfl | rfl
  · exact hstatus
  · exact ⟨List.append_ne_nil_of_right_ne_nil _ (numeral_ne_nil length),
      List.forall_mem_append.mpr ⟨hname, hnumber⟩⟩
  · exact htype

theorem filter_headerLines (length : Nat) :
    (headerLines length).filter announcesLength = [utf8 "Content-Length: " ++ numeral length] := by
  have hstatus : announcesLength (utf8 "HTTP/1.1 200 OK") = false := by decide +kernel
  have htype : announcesLength (utf8 "Content-Type: text/html; charset=UTF-8") = false := by
    decide +kernel
  have hlength : announcesLength (utf8 "Content-Length: " ++ numeral length) = true := by
    have hname : utf8 "content-length:" <+: (utf8 "Content-Length: ").map Byte.lower := by
      decide +kernel
    rw [announcesLength, List.isPrefixOf_iff_prefix, List.map_append]
    exact hname.trans (List.prefix_append _ _)
  simp [headerLines, hstatus, htype, hlength]

theorem utf8_head (bodyLength : Nat) (title menu : String) :
    utf8 (head bodyLength title menu) =
      headerOf (headerLines ((opening title menu).utf8ByteSize + bodyLength)) ++
        utf8 (opening title menu) := by
  have hstatus : utf8 "HTTP/1.1 200 OK\r\n" = utf8 "HTTP/1.1 200 OK" ++ crLf := by decide +kernel
  have htype : utf8 "Content-Type: text/html; charset=UTF-8\r\n" =
      utf8 "Content-Type: text/html; charset=UTF-8" ++ crLf := by
    decide +kernel
  have hbreak : utf8 "\r\n" = crLf := by decide +kernel
  delta head
  simp only [utf8_append, numeral, headerOf, headerLines, hstatus, htype, hbreak,
    List.flatMap_cons, List.flatMap_nil, List.append_nil, List.append_assoc]

/-- A page is framed: the number that it announces counts the bytes of its content. -/
theorem framed_page (title menu body : String) :
    Framed (page title menu body) (utf8 (opening title menu) ++ utf8 body) := by
  rw [page, utf8_append, utf8_head, List.append_assoc, ← length_utf8, ← length_utf8,
    ← List.length_append]
  refine ⟨_, _, isLine_of_mem_headerLines, ?_, filter_headerLines _, numeral_ne_nil _,
    isDigit_of_mem_numeral _, decimalValue_numeral _⟩
  exact cutAtBlankLine_headerOf isLine_of_mem_headerLines (by simp [headerLines]) _

end Answer

end Http

open Http

/-! ## Sending a page -/

/-- The parts of a page do not fit where they are composed. -/
def Site.TooLarge (site : Site) (title body : String) : Prop :=
  site.limits.menuCapacity < site.menuText.utf8ByteSize ∨
    site.limits.headCapacity < (utf8 (Answer.head body.utf8ByteSize title site.menuText)).length

theorem Site.tooLarge_iff {site : Site} {title body : String} :
    site.TooLarge title body ↔ ¬ site.Fits title body := by
  rw [TooLarge, Fits, not_and_or, not_le, not_le, length_utf8]

namespace Handler

variable (site : Site) (request : Request) (page : Page) (showHome : Visit → VisitProgram)

/-- What sending bytes comes to: a failure to send them is reported as such. -/
theorem perform_sendBytes_eq (data : Bytes) (visit : Visit) :
    perform site request page showHome (sendBytes data) visit =
      .done (some ((visit.send site.limits data).1.mapError .io,
        (visit.send site.limits data).2)) := by
  unfold sendBytes perform
  rcases visit.send site.limits data with ⟨_ | _, after⟩ <;> rfl

/-- A page whose head can be composed is not reported as one that cannot. -/
theorem not_response_of_perform_sendPage {body : String} {head : Bytes}
    (h : site.head body.utf8ByteSize page.title = .ok head) {visit after : Visit}
    {result : Except HandlerError Unit}
    (hperform : perform site request page showHome (sendPage body) visit =
      .done (some (result, after))) :
    ¬ ∃ e, result = .error (.response e) := by
  unfold sendPage at hperform
  simp only [perform, h, sendHeadAndBody] at hperform
  rw [perform_bind, perform_sendBytes_eq] at hperform
  rintro ⟨e, rfl⟩
  cases hsend : visit.send site.limits head with
  | mk sent between =>
    cases sent with
    | error e =>
      simp [hsend, Except.mapError, perform] at hperform
    | ok =>
      simp only [hsend, Except.mapError, Program.bindSome_done_some, perform_sendBytes_eq,
        Program.done.injEq, Option.some.injEq, Prod.mk.injEq] at hperform
      obtain ⟨hresult, -⟩ := hperform
      split at hresult <;> simp at hresult

/-- A page is sent to its end if its parts fit and no write breaks off, and then it is framed;
    it is reported as too large, and leaves no trace, if they do not fit. -/
theorem perform_sendPage_framed (body : String) (visit : Visit) :
    ∃ result after made,
      perform site request page showHome (sendPage body) visit = .done (some (result, after)) ∧
      after.transport.sink.calls = visit.transport.sink.calls ++ made ∧
      (result = .ok () ↔ ¬ site.TooLarge page.title body ∧ Unbroken made) ∧
      (result = .ok () →
        made.flatMap SinkCall.accepted = site.pageResponse page.title body ∧
        Framed (made.flatMap SinkCall.accepted)
          (utf8 (Answer.opening page.title site.menuText) ++ utf8 body)) ∧
      ((∃ e, result = .error (.response e)) ↔ site.TooLarge page.title body) ∧
      (site.TooLarge page.title body → made = [] ∧ after = visit) := by
  rw [Site.tooLarge_iff, not_not, ← Site.exists_head_eq_ok_iff]
  cases hhead : site.head body.utf8ByteSize page.title with
  | error e =>
    have hperform := perform_sendPage_of_head_eq_error site request page showHome hhead visit
    refine ⟨_, _, [], hperform, ?_, ?_, ?_, ?_, ?_⟩
    · rw [List.append_nil]
    all_goals simp
  | ok head =>
    obtain ⟨result, after, hperform, -, made, hcalls, htransmits, hcomplete⟩ :=
      perform_sendPage_of_head_eq_ok site request page showHome hhead visit
    have hresponse := not_response_of_perform_sendPage site request page showHome hhead hperform
    refine ⟨result, after, made, hperform, hcalls, ?_, fun hok => ?_, ?_, ?_⟩
    · simpa using hcomplete
    · have hwhole := htransmits.whole (hcomplete.mp hok)
      exact ⟨hwhole, hwhole ▸ Answer.framed_page page.title site.menuText body⟩
    · exact iff_of_false hresponse (by simp)
    · simp

/-- Every page sent is framed, whatever its title, menu and body, and a head is composed
    exactly if its bytes fit. -/
theorem sendPage_framed :
    (∀ body visit, ∃ result after made,
      perform site request page showHome (sendPage body) visit = .done (some (result, after)) ∧
      after.transport.sink.calls = visit.transport.sink.calls ++ made ∧
      (result = .ok () ↔ ¬ site.TooLarge page.title body ∧ Unbroken made) ∧
      (result = .ok () →
        made.flatMap SinkCall.accepted = site.pageResponse page.title body ∧
        Framed (made.flatMap SinkCall.accepted)
          (utf8 (Answer.opening page.title site.menuText) ++ utf8 body)) ∧
      ((∃ e, result = .error (.response e)) ↔ site.TooLarge page.title body) ∧
      (site.TooLarge page.title body → made = [] ∧ after = visit)) ∧
    ∀ bodyLength title menu capacity,
      let composed := utf8 (Answer.head bodyLength title menu)
      ((∃ head, Response.head bodyLength title menu capacity = .ok head) ↔
        composed.length ≤ capacity) ∧
      (∀ head, Response.head bodyLength title menu capacity = .ok head → head = composed) ∧
      ∀ e, Response.head bodyLength title menu capacity = .error e →
        e = .headTooLarge composed.length capacity := by
  refine ⟨perform_sendPage_framed site request page showHome, ?_⟩
  intro bodyLength title menu capacity composed
  rw [Response.head_eq, ← length_utf8]
  split_ifs with hfits
  · exact ⟨iff_of_true ⟨composed, rfl⟩ hfits, fun head hhead => (Except.ok.inj hhead).symm,
      by simp⟩
  · exact ⟨iff_of_false (by simp) hfits, by simp, fun e he => (Except.error.inj he).symm⟩

end Handler

end Provision
