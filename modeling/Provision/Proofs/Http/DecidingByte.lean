/-
  Provision.Proofs.Http.DecidingByte

  The byte that settles a header. All bytes before it leave the header open, and from it on nothing
  changes what is made of them (`HeaderDecidedAt`). A header that is read from a connection is
  settled by the same byte as one that is held in memory, with the same result, and this byte is the
  last that is taken (`readRequest_agrees`). The bound of a header is passed by one byte at most, so
  a stream that never ends is settled as well.
-/
import Provision.Proofs.Http.Stream

namespace Provision.Http

/-- The byte before this offset settles whether a header stands at the front of the bytes, and
    which. -/
structure HeaderDecidedAt (limits : Limits) (bytes : Bytes) (n : Nat) : Prop where
  settled : parseHeader limits bytes ≠ .error .incomplete
  before : ∀ m < n, parseHeader limits (bytes.take m) = .error .incomplete
  after : ∀ m, n ≤ m → parseHeader limits (bytes.take m) = parseHeader limits bytes

namespace HeaderReader

variable {limits : Limits} {reader : HeaderReader}

/-- A reader gives its answer with the last byte that it takes, and not before. -/
theorem parse_take (reader : HeaderReader) (bytes : Bytes) (m : Nat) :
    reader.parse limits (bytes.take m) =
      if m < (reader.taken limits bytes).length then .error .incomplete
      else reader.parse limits bytes := by
  -- the bytes and the place of the cut go down together, as long as the reader takes them
  induction bytes generalizing reader m with
  | nil => simp [taken]
  | cons b bytes ih =>
    cases m with
    | zero =>
      have hpos : 0 < (reader.taken limits (b :: bytes)).length := by
        unfold taken
        split <;> simp
      rw [if_pos hpos]
      rfl
    | succ m =>
      rw [List.take_succ_cons, parse, parse, taken]
      cases reader.push limits b with
      | error e => simp
      | ok pushed =>
        obtain ⟨ended, next⟩ := pushed
        cases ended with
        | false =>
          simp only [List.length_cons, Nat.add_lt_add_iff_right]
          exact ih next m
        | true => simp

/-- A header that is not settled keeps its bound, and all of it was taken. -/
theorem of_parse_eq_incomplete {bytes : Bytes} (hroom : reader.consumed ≤ limits.maxHeaderBytes)
    (h : reader.parse limits bytes = .error .incomplete) :
    reader.consumed + bytes.length ≤ limits.maxHeaderBytes ∧ reader.taken limits bytes = bytes := by
  induction bytes generalizing reader with
  | nil => exact ⟨hroom, rfl⟩
  | cons b bytes ih =>
    unfold parse at h
    unfold taken
    cases hpush : reader.push limits b with
    | error e =>
      -- a refusal has a reason of its own
      have hmalformed := isMalformed_of_push_eq_error hpush
      rw [hpush] at h
      cases h
      cases hmalformed
    | ok pushed =>
      obtain ⟨ended, next⟩ := pushed
      obtain ⟨hless, hconsumed, -⟩ := push_eq_ok_iff.mp hpush
      cases ended with
      | false =>
        rw [hpush] at h
        obtain ⟨hlength, htaken⟩ := ih (by omega) h
        exact ⟨by rw [List.length_cons]; omega, congrArg _ htaken⟩
      | true =>
        rw [hpush] at h
        cases hfinish : next.finish with
        | error e =>
          have hmalformed := isMalformed_of_finish_eq_error hfinish
          simp only [hfinish] at h
          cases h
          cases hmalformed
        | ok request => simp [hfinish] at h

/-- What comes after the byte that settles a header stays on the source. -/
theorem read_append {source : Source} (more : Source)
    (h : reader.parse limits source.delivered ≠ .error .incomplete) :
    reader.read limits (source ++ more) =
      ((reader.read limits source).1, (reader.read limits source).2 ++ more) := by
  generalize hbytes : source.delivered = bytes at h
  -- the induction is on what is delivered: failures to try again deliver nothing
  induction bytes generalizing reader source with
  | nil => exact absurd rfl h
  | cons b bytes ih =>
    obtain ⟨rest, hreceive, hrest, -⟩ := Source.exists_receive_of_delivered_cons hbytes
    rw [read_of_receive_some reader hreceive,
      read_of_receive_some reader (Source.receive_append hreceive more)]
    unfold parse at h
    cases hpush : reader.push limits b with
    | error e => rfl
    | ok pushed =>
      obtain ⟨ended, next⟩ := pushed
      cases ended with
      | false =>
        rw [hpush] at h
        exact ih hrest h
      | true => rfl

end HeaderReader

/-! ## The byte that settles a header -/

variable {limits : Limits} {bytes : Bytes}

theorem length_le_of_parseHeader_eq_incomplete (h : parseHeader limits bytes = .error .incomplete) :
    bytes.length ≤ limits.maxHeaderBytes := by
  have hlength := (HeaderReader.of_parse_eq_incomplete (Nat.zero_le _) h).1
  rwa [HeaderReader.initial, Nat.zero_add] at hlength

/-- A header is settled by the last byte that a reader takes of it. -/
theorem headerDecidedAt_taken (h : parseHeader limits bytes ≠ .error .incomplete) :
    HeaderDecidedAt limits bytes (HeaderReader.initial.taken limits bytes).length where
  settled := h
  before := fun m hm => by
    unfold parseHeader
    rw [HeaderReader.parse_take, if_pos hm]
  after := fun m hm => by
    unfold parseHeader
    rw [HeaderReader.parse_take, if_neg (Nat.not_lt_of_le hm)]

theorem HeaderDecidedAt.le_length {n : Nat} (h : HeaderDecidedAt limits bytes n) :
    n ≤ bytes.length := by
  by_contra hlong
  have hopen := h.before bytes.length (Nat.lt_of_not_le hlong)
  rw [List.take_length] at hopen
  exact h.settled hopen

/-- The bound of a header is passed by one byte at most. -/
theorem HeaderDecidedAt.le_bound {n : Nat} (h : HeaderDecidedAt limits bytes n) :
    n ≤ limits.maxHeaderBytes + 1 := by
  cases n with
  | zero => exact Nat.zero_le _
  | succ n =>
    -- one byte less leaves the header open, so it is within the bound
    have hlength := length_le_of_parseHeader_eq_incomplete (h.before n (Nat.lt_succ_self n))
    have hwithin := h.le_length
    rw [List.length_take] at hlength
    omega

/-! ## Reading agrees with parsing -/

namespace HeaderReader

/-- A reader on a connection never answers that bytes are missing. -/
theorem verdict_ne_incomplete (ending : Option IoError)
    (parsed : Except ParseError (Request × Nat)) :
    verdict ending parsed ≠ .error .incomplete := by
  cases parsed with
  | ok parsed => nofun
  | error e =>
    cases e with
    | incomplete => cases ending <;> nofun
    | _ => nofun

theorem verdict_of_settled (ending : Option IoError) {parsed : Except ParseError (Request × Nat)}
    (h : parsed ≠ .error .incomplete) : verdict ending parsed = parsed.map Prod.fst := by
  cases parsed with
  | ok parsed => rfl
  | error e =>
    cases e with
    | incomplete => exact absurd rfl h
    | _ => rfl

end HeaderReader

/-- Reading a request, by what is made of the delivered bytes. -/
theorem exists_readRequest (limits : Limits) (source : Source) :
    ∃ rest, readRequest limits source =
        (HeaderReader.verdict source.ending (parseHeader limits source.delivered), rest) ∧
      source.unread = HeaderReader.initial.taken limits source.delivered ++ rest.unread ∧
      (parseHeader limits source.delivered ≠ .error .incomplete →
        source.Yields (HeaderReader.initial.taken limits source.delivered) rest) :=
  HeaderReader.initial.read_spec limits source

/-- A settled header is read as it is parsed, and the byte that settles it is the last that is
    taken. -/
theorem readRequest_of_settled {source : Source}
    (h : parseHeader limits source.delivered ≠ .error .incomplete) :
    (readRequest limits source).1 = (parseHeader limits source.delivered).map Prod.fst ∧
      ∃ n, n ≤ limits.maxHeaderBytes + 1 ∧ HeaderDecidedAt limits source.delivered n ∧
        source.Yields (source.delivered.take n) (readRequest limits source).2 ∧
        ∀ request m, parseHeader limits source.delivered = .ok (request, m) → n = m := by
  obtain ⟨rest, hread, -, hyields⟩ := exists_readRequest limits source
  rw [hread, HeaderReader.verdict_of_settled source.ending h]
  have hdecided := headerDecidedAt_taken h
  refine ⟨rfl, _, hdecided.le_bound, hdecided, ?_, fun request m hm => ?_⟩
  · rw [← List.prefix_iff_eq_take.mp (HeaderReader.taken_prefix _ _)]
    exact hyields h
  · have hlength := HeaderReader.length_taken_of_parse_eq_ok hm
    rwa [HeaderReader.initial, Nat.zero_add] at hlength

theorem readRequest_of_incomplete {source : Source}
    (h : parseHeader limits source.delivered = .error .incomplete) :
    (readRequest limits source).1 = .error (source.ending.elim .peerClosed .io) ∧
      source.unread = source.delivered ++ (readRequest limits source).2.unread := by
  obtain ⟨rest, hread, hunread, -⟩ := exists_readRequest limits source
  rw [(HeaderReader.of_parse_eq_incomplete (Nat.zero_le _) h).2] at hunread
  rw [hread, h]
  exact ⟨rfl, hunread⟩

/-- On a stream that never ends a request is read once the bound of a header is passed, if not
    before, and what arrives later does not matter. -/
theorem readRequest_of_endless {arrivals : Nat → ReadEvent} (h : Source.Endless arrivals) :
    ∃ count result taken rest, taken.length ≤ limits.maxHeaderBytes + 1 ∧
      (Source.first arrivals count).Yields taken rest ∧
      ∀ more, readRequest limits (Source.first arrivals count ++ more) = (result, rest ++ more) := by
  -- so many arrivals that they deliver more than an open header can have
  obtain ⟨count, hlong⟩ := h (limits.maxHeaderBytes + 1)
  have hsettled : parseHeader limits (Source.first arrivals count).delivered ≠
      .error .incomplete := by
    intro hopen
    have := length_le_of_parseHeader_eq_incomplete hopen
    omega
  obtain ⟨-, n, hbound, -, hyields, -⟩ := readRequest_of_settled hsettled
  refine ⟨count, _, _, _, ?_, hyields, fun more => HeaderReader.read_append more hsettled⟩
  rw [List.length_take]
  omega

/-- A request is read from a connection as it is parsed from the bytes that the connection
    delivers, however they are cut into arrivals and whatever transient failures stand between. The
    last byte that is taken is the one that settles the header: the end of its blank line, or the
    one that is refused. Where the bytes run out before, the ending of the connection is reported;
    where they never do, the bound of a header ends the reading. -/
theorem readRequest_agrees (limits : Limits) (source : Source) (arrivals : Nat → ReadEvent) :
    (parseHeader limits source.delivered ≠ .error .incomplete →
      (readRequest limits source).1 = (parseHeader limits source.delivered).map Prod.fst ∧
      ∃ n, n ≤ limits.maxHeaderBytes + 1 ∧ HeaderDecidedAt limits source.delivered n ∧
        source.Yields (source.delivered.take n) (readRequest limits source).2 ∧
        ∀ request m, parseHeader limits source.delivered = .ok (request, m) → n = m) ∧
    (parseHeader limits source.delivered = .error .incomplete →
      (readRequest limits source).1 = .error (source.ending.elim .peerClosed .io) ∧
      source.unread = source.delivered ++ (readRequest limits source).2.unread) ∧
    (readRequest limits source).1 ≠ .error .incomplete ∧
    (Source.Endless arrivals →
      ∃ count result taken rest, taken.length ≤ limits.maxHeaderBytes + 1 ∧
        (Source.first arrivals count).Yields taken rest ∧
        ∀ more,
          readRequest limits (Source.first arrivals count ++ more) = (result, rest ++ more)) := by
  refine ⟨readRequest_of_settled, readRequest_of_incomplete, ?_, readRequest_of_endless⟩
  obtain ⟨rest, hread, -⟩ := exists_readRequest limits source
  rw [hread]
  exact HeaderReader.verdict_ne_incomplete _ _

/-- A request in two pieces with a form behind it, one whose connection breaks, and a stream that
    repeats one byte for ever. -/
theorem readRequest_agrees_browser :
    let source : Source := [.failure .interrupted,
      .data (utf8 "POST /setwifi.html HTTP/1.1\r\nContent-"), .failure .wouldBlock,
      .data (utf8 "Length: 6\r\n\r\nssid=x")]
    let broken : Source := [.data (utf8 "GET / HTTP/1.1\r\n"), .failure .connectionReset]
    let arrivals : Nat → ReadEvent := fun _ => .data [Byte.cr]
    parseHeader .standard source.delivered = .ok (⟨.post, "/setwifi.html", 6⟩, 50) ∧
    (readRequest .standard source).1 = .ok ⟨.post, "/setwifi.html", 6⟩ ∧
    source.Yields (source.delivered.take 50) (readRequest .standard source).2 ∧
    parseHeader .standard broken.delivered = .error .incomplete ∧
    (readRequest .standard broken).1 = .error (.io .connectionReset) ∧
    Source.Endless arrivals ∧
    ∃ count result taken rest, taken.length ≤ Limits.standard.maxHeaderBytes + 1 ∧
      (Source.first arrivals count).Yields taken rest ∧
      ∀ more, readRequest .standard (Source.first arrivals count ++ more) =
        (result, rest ++ more) := by
  intro source broken arrivals
  have hparse : parseHeader .standard source.delivered =
      .ok (⟨.post, "/setwifi.html", 6⟩, 50) := by decide +kernel
  have hbroken : parseHeader .standard broken.delivered = .error .incomplete := by decide +kernel
  have hendless : Source.Endless arrivals := Source.endless_const Byte.cr
  obtain ⟨hsettled, -, -, hlong⟩ := readRequest_agrees .standard source arrivals
  obtain ⟨-, hincomplete, -⟩ := readRequest_agrees .standard broken arrivals
  obtain ⟨hresult, n, -, -, hyields, hends⟩ := hsettled (by rw [hparse]; nofun)
  obtain rfl := hends _ _ hparse
  refine ⟨hparse, ?_, hyields, hbroken, (hincomplete hbroken).1, hendless, hlong hendless⟩
  rw [hresult, hparse]
  rfl

end Provision.Http
