import VoxTree.HttpExchange
import VoxTree.Lib.Lines
import VoxTree.Lib.TreeMap
import VoxTree.Proofs.Json
import VoxTree.Proofs.LinuxHttpServer

/-!
# What goes through an exchange

A request and a response are lines, an empty line and a body. The server reads of a request of the
load driver what was written, however the bytes are cut (`readRequest_wire`), and the load driver
reads the status and the body of what the server answers (`receive_sendResponse`).
-/

namespace VoxTree

open Search

namespace LinuxHttpServer

/-! ## Blanks -/

theorem trim_of_notBlank {value : Bytes} (h : ∀ b ∈ value, isBlank b = false) :
    trim value = value := by
  have hfront : ∀ l : Bytes, (∀ b ∈ l, isBlank b = false) → l.dropWhile isBlank = l := by
    intro l hl
    rcases l with _ | ⟨b, l⟩
    · rfl
    · exact List.dropWhile_cons_of_neg (by simp [hl b List.mem_cons_self])
  unfold trim
  rw [hfront value h, hfront value.reverse fun b hb => h b (List.mem_reverse.1 hb),
    List.reverse_reverse]

theorem trim_space (value : Bytes) : trim (0x20 :: value) = trim value := by
  unfold trim
  rw [List.dropWhile_cons_of_pos (by decide)]

/-! ## Header lines -/

/-- A text that can stand in a header: no carriage return, and no blank at its ends. -/
abbrev Plain (text : Bytes) : Prop := 0x0d ∉ text ∧ trim text = text

/-- A header that can be written and read. -/
structure Legible (header : Bytes × Bytes) : Prop where
  named : header.1 ≠ []
  colon : 0x3a ∉ header.1
  name : Plain header.1
  value : Plain header.2

theorem legible_of {name value : Bytes} (hname : name ≠ [] ∧ 0x3a ∉ name ∧ Plain name)
    (hvalue : Plain value) : Legible (name, value) :=
  ⟨hname.1, hname.2.1, hname.2.2, hvalue⟩

/-- Digits are neither carriage returns nor blanks. -/
theorem digits_decimal (n : ℕ) :
    0x0d ∉ decimal n ∧ ∀ b ∈ decimal n, isBlank b = false := by
  have hdigits : ∀ b ∈ decimal n, Encoding.isDigit b = true := fun b hb =>
    Encoding.isDigit_of_mem_decimal hb
  refine ⟨fun hmem => ?_, fun b hb => ?_⟩
  · have hdigit := hdigits _ hmem
    simp [Encoding.isDigit] at hdigit
  · have hdigit := hdigits b hb
    rcases h : isBlank b with _ | _
    · rfl
    · simp only [isBlank, Bool.or_eq_true, decide_eq_true_eq] at h
      rcases h with rfl | rfl <;> simp [Encoding.isDigit] at hdigit

theorem plain_decimal (n : ℕ) : Plain (decimal n) :=
  ⟨(digits_decimal n).1, trim_of_notBlank (digits_decimal n).2⟩

theorem plain_append {front back : Bytes} (hfront : 0x0d ∉ front ∧ ∀ b ∈ front, isBlank b = false)
    (hback : 0x0d ∉ back ∧ ∀ b ∈ back, isBlank b = false) : Plain (front ++ back) :=
  ⟨fun hmem => (List.mem_append.1 hmem).elim hfront.1 hback.1,
    trim_of_notBlank (List.forall_mem_append.2 ⟨hfront.2, hback.2⟩)⟩

theorem headerLine_eq (header : Bytes × Bytes) :
    headerLine header = header.1 ++ (0x3a :: 0x20 :: header.2) := by
  have hcolon : bytes ": " = [0x3a, 0x20] := by decide
  rw [headerLine, hcolon, List.append_assoc]
  rfl

theorem headerLine_ne_nil (header : Bytes × Bytes) : headerLine header ≠ [] := by
  simp [headerLine_eq]

theorem Legible.notMem_headerLine {header : Bytes × Bytes} (h : Legible header) :
    0x0d ∉ headerLine header := by
  have hname := h.name.1
  have hvalue := h.value.1
  simp [headerLine_eq, hname, hvalue]

/-- The name under which a header is kept. -/
def keptName (header : Bytes × Bytes) : Bytes := lowerAscii header.1

/-- The headers of the lines. -/
def insertAll (headers : Headers) (fields : List (Bytes × Bytes)) : Headers :=
  fields.foldl (fun headers field => headers.insert (keptName field) field.2) headers

/-- The loop over the header lines reads the headers that were written, from the first line on. -/
theorem parseHeaders_lines {body : Bytes} : ∀ {fields : List (Bytes × Bytes)} {front : Bytes}
    {headerEnd : ℕ} {headers : Headers}, (∀ field ∈ fields, Legible field) →
      (fields.map keptName).Nodup →
      (∀ field ∈ fields, keptName field ∉ headers) →
      headerEnd + 2 = front.length + (Lines.join 0x0d 0x0a (fields.map headerLine)).length →
      parseHeaders (front ++ (Lines.join 0x0d 0x0a (fields.map headerLine)
        ++ (0x0d :: 0x0a :: body))) headerEnd front.length headers
          = .ok (insertAll headers fields)
  | [], front, headerEnd, headers, _, _, _, hend => by
    have hlength : (Lines.join (0x0d : UInt8) 0x0a []).length = 0 := rfl
    rw [List.map_nil, hlength] at hend
    unfold parseHeaders
    rw [if_neg (by omega)]
    rfl
  | field :: fields, front, headerEnd, headers, hlegible, hnodup, hfresh, hend => by
    obtain ⟨hfield, hfields⟩ := List.forall_mem_cons.1 hlegible
    obtain ⟨hnotMem, hrest⟩ := List.nodup_cons.1 hnodup
    have hpositive := List.length_pos_iff.2 (headerLine_ne_nil field)
    rw [List.map_cons, Lines.length_join_cons] at hend
    -- the first line is read, and the loop goes on behind its end
    have hfind : find lineTerminator ((front ++ (Lines.join 0x0d 0x0a (headerLine field ::
        fields.map headerLine) ++ (0x0d :: 0x0a :: body))).drop front.length)
          = some (headerLine field).length := by
      rw [List.drop_left, Lines.join_cons, List.append_assoc]
      exact Lines.find_lineEnd hfield.notMem_headerLine _
    have htake : ((front ++ (Lines.join 0x0d 0x0a (headerLine field ::
        fields.map headerLine) ++ (0x0d :: 0x0a :: body))).drop front.length).take
          (headerLine field).length = headerLine field := by
      rw [List.drop_left, Lines.join_cons, List.append_assoc, List.take_left]
    have hcolon : find [0x3a] (headerLine field) = some field.1.length := by
      rw [headerLine_eq]
      exact Lines.find_symbol hfield.colon _
    have hname : lowerAscii (trim ((headerLine field).take field.1.length)) = keptName field := by
      rw [headerLine_eq, List.take_left, hfield.name.2]
      rfl
    have hvalue : trim ((headerLine field).drop (field.1.length + 1)) = field.2 := by
      rw [headerLine_eq, ← List.drop_drop, List.drop_left]
      exact (trim_space _).trans hfield.value.2
    have hlower : keptName field ≠ [] := by
      simpa [keptName, lowerAscii] using hfield.named
    have hnew : ¬headers.contains (keptName field) = true := fun hcontains =>
      hfresh field List.mem_cons_self (Std.ExtTreeMap.mem_iff_contains.2 hcontains)
    have hfront : front ++ (Lines.join 0x0d 0x0a (headerLine field :: fields.map headerLine)
        ++ (0x0d :: 0x0a :: body)) = (front ++ (headerLine field ++ [0x0d, 0x0a]))
          ++ (Lines.join 0x0d 0x0a (fields.map headerLine) ++ (0x0d :: 0x0a :: body)) := by
      simp [Lines.join_cons]
    have hlength : (front ++ (headerLine field ++ [0x0d, 0x0a])).length
        = front.length + (headerLine field).length + 2 := by
      simp only [List.length_append, List.length_cons, List.length_nil]
      omega
    have ih : parseHeaders ((front ++ (headerLine field ++ [0x0d, 0x0a]))
        ++ (Lines.join 0x0d 0x0a (fields.map headerLine) ++ (0x0d :: 0x0a :: body))) headerEnd
          (front ++ (headerLine field ++ [0x0d, 0x0a])).length
          (headers.insert (keptName field) field.2)
        = .ok (insertAll (headers.insert (keptName field) field.2) fields) := by
      refine parseHeaders_lines hfields hrest (fun other hother => ?_) (by omega)
      have hne : keptName field ≠ keptName other := fun heq =>
        hnotMem (List.mem_map.2 ⟨other, hother, heq.symm⟩)
      rw [Std.ExtTreeMap.mem_insert, Std.LawfulEqOrd.compare_eq_iff_eq]
      exact fun hmem => hmem.elim hne (hfresh other (List.mem_cons_of_mem _ hother))
    rw [List.map_cons]
    unfold parseHeaders
    rw [if_pos (by omega), hfind]
    simp only
    rw [if_neg (by omega), htake, hcolon]
    simp only [hname, hvalue]
    rw [if_neg (not_or.2 ⟨hlower, hnew⟩), hfront]
    rw [hlength] at ih
    exact ih

end LinuxHttpServer

namespace LoadDriver

open LinuxHttpServer

/-! ## The request -/

namespace Request

def optionalField (name : String) (value : Bytes) : List (Bytes × Bytes) :=
  if value = [] then [] else [(bytes name, value)]

/-- The headers in the order they are written. -/
def fields (r : Request) : List (Bytes × Bytes) :=
  [(bytes "Host", r.host), (bytes "Connection", bytes "close"),
      (bytes "X-Correlation-ID", bytes "load-" ++ decimal r.started)]
    ++ optionalField "Authorization" r.authorization ++ optionalField "X-HVC-Device-ID" r.device
    ++ if r.body = [] then []
      else [(bytes "Content-Type", bytes "application/json; charset=utf-8"),
        (bytes "Content-Length", decimal r.body.length)]

def requestLine (r : Request) : Bytes :=
  r.method ++ (0x20 :: r.target ++ (0x20 :: bytes "HTTP/1.1"))

/-- The request as the server is to see it. -/
def received (r : Request) : HttpRequest where
  method := r.method
  target := r.target
  headers := insertAll ∅ r.fields
  body := r.body

/-- What the callers of `request` give it: no text has a carriage return or blanks at its ends, and
the sizes are within the server's limits. -/
structure Sendable (r : Request) : Prop where
  method : r.method ≠ [] ∧ 0x20 ∉ r.method ∧ 0x0d ∉ r.method
  target : r.target.head? = some 0x2f ∧ 0x20 ∉ r.target ∧ 0x0d ∉ r.target
  host : Plain r.host
  authorization : Plain r.authorization
  device : Plain r.device
  header : r.wire.length ≤ r.body.length + maximumHeaderBytes
  body : r.body.length ≤ maximumBodyBytes

variable {r : Request}

theorem join_optionalField (name : String) (value : Bytes) :
    Lines.join 0x0d 0x0a ((optionalField name value).map headerLine) = optionalHeader name value := by
  have hend : bytes "\r\n" = [0x0d, 0x0a] := by decide
  unfold optionalField optionalHeader
  split_ifs
  · rfl
  · simp [Lines.join, headerLine, hend]

/-- The request is its lines, an empty line and its body. -/
theorem wire_eq (r : Request) : r.wire
    = Lines.join 0x0d 0x0a (r.requestLine :: r.fields.map headerLine) ++ (0x0d :: 0x0a :: r.body) := by
  have hhost : bytes " HTTP/1.1\r\nHost: "
      = 0x20 :: bytes "HTTP/1.1" ++ (0x0d :: 0x0a :: bytes "Host" ++ bytes ": ") := by
    decide
  have hconnection : bytes "\r\nConnection: close\r\nX-Correlation-ID: load-"
      = 0x0d :: 0x0a :: (bytes "Connection" ++ bytes ": " ++ bytes "close")
        ++ (0x0d :: 0x0a :: bytes "X-Correlation-ID" ++ bytes ": " ++ bytes "load-") := by
    decide
  have hcontent : bytes "Content-Type: application/json; charset=utf-8\r\nContent-Length: "
      = bytes "Content-Type" ++ bytes ": " ++ bytes "application/json; charset=utf-8"
        ++ (0x0d :: 0x0a :: bytes "Content-Length" ++ bytes ": ") := by
    decide
  have hend : bytes "\r\n" = [0x0d, 0x0a] := by decide
  have hspace : bytes " " = [0x20] := by decide
  unfold wire fields requestLine
  simp only [List.map_append, List.map_cons, List.map_nil, Lines.join_append, Lines.join_cons,
    join_optionalField, hhost, hconnection, hcontent, hend, hspace]
  split_ifs <;> simp [Lines.join, headerLine]

/-- The names a request may have, as the server keeps them. -/
def headerNames : List Bytes :=
  [bytes "host", bytes "connection", bytes "x-correlation-id", bytes "authorization",
    bytes "x-hvc-device-id", bytes "content-type", bytes "content-length"]

theorem fields_names (r : Request) :
    (r.fields.map keptName).Sublist headerNames := by
  have hlower : LinuxHttpServer.lowerAscii (bytes "Host") = bytes "host"
      ∧ LinuxHttpServer.lowerAscii (bytes "Connection") = bytes "connection"
      ∧ LinuxHttpServer.lowerAscii (bytes "X-Correlation-ID") = bytes "x-correlation-id"
      ∧ LinuxHttpServer.lowerAscii (bytes "Authorization") = bytes "authorization"
      ∧ LinuxHttpServer.lowerAscii (bytes "X-HVC-Device-ID") = bytes "x-hvc-device-id"
      ∧ LinuxHttpServer.lowerAscii (bytes "Content-Type") = bytes "content-type"
      ∧ LinuxHttpServer.lowerAscii (bytes "Content-Length") = bytes "content-length" := by
    decide
  obtain ⟨hhost, hconnection, hcorrelation, hauthorization, hdevice, htype, hlength⟩ := hlower
  unfold fields optionalField headerNames
  split_ifs <;> simp [keptName, hhost, hconnection, hcorrelation, hauthorization, hdevice, htype,
    hlength]

theorem fields_nodup (r : Request) : (r.fields.map keptName).Nodup := by
  have hnodup : headerNames.Nodup := by decide
  exact hnodup.sublist r.fields_names

theorem Sendable.legible (h : r.Sendable) : ∀ field ∈ r.fields, Legible field := by
  unfold fields optionalField
  intro field hfield
  simp only [List.mem_append, List.mem_cons, List.not_mem_nil, or_false] at hfield
  rcases hfield with (((rfl | rfl | rfl) | hfield) | hfield) | hfield
  · exact legible_of (by decide) h.host
  · exact legible_of (by decide) (by decide)
  · exact legible_of (by decide) (plain_append (by decide +kernel) (digits_decimal r.started))
  · split_ifs at hfield
    · simp at hfield
    · obtain rfl := List.mem_singleton.1 hfield
      exact legible_of (by decide) h.authorization
  · split_ifs at hfield
    · simp at hfield
    · obtain rfl := List.mem_singleton.1 hfield
      exact legible_of (by decide) h.device
  · split_ifs at hfield
    · simp at hfield
    · simp only [List.mem_cons, List.not_mem_nil, or_false] at hfield
      rcases hfield with rfl | rfl
      · exact legible_of (by decide) (by decide)
      · exact legible_of (by decide) (plain_decimal r.body.length)

theorem Sendable.notMem_requestLine (h : r.Sendable) : 0x0d ∉ r.requestLine := by
  have hmethod := h.method.2.2
  have htarget := h.target.2.2
  have hversion : 0x0d ∉ bytes "HTTP/1.1" := by decide
  simp [requestLine, hmethod, htarget, hversion]

theorem Sendable.parseRequestLine_eq (h : r.Sendable) :
    parseRequestLine r.requestLine = .ok ⟨r.method, r.target, ∅, []⟩ := by
  obtain ⟨hmethod, hspace, -⟩ := h.method
  obtain ⟨hslash, hspaceTarget, -⟩ := h.target
  have hfirst : find [0x20] r.requestLine = some r.method.length := Lines.find_symbol hspace _
  have hbehind : r.requestLine.drop (r.method.length + 1) = r.target ++ (0x20 :: bytes "HTTP/1.1") := by
    rw [requestLine, ← List.drop_drop, List.drop_left]
    rfl
  have hsecond : find [0x20] (r.target ++ (0x20 :: bytes "HTTP/1.1")) = some r.target.length :=
    Lines.find_symbol hspaceTarget _
  have hversion : (r.target ++ (0x20 :: bytes "HTTP/1.1")).drop (r.target.length + 1)
      = bytes "HTTP/1.1" := by
    rw [← List.drop_drop, List.drop_left]
    rfl
  have htarget : r.target ≠ [] := fun heq => by simp [heq] at hslash
  unfold parseRequestLine
  rw [hfirst]
  simp only [hbehind, hsecond, hversion, List.take_left]
  simp [requestLine, hmethod, htarget, hslash]

/-- Where the header section ends. -/
def headerEnd (r : Request) : ℕ :=
  (Lines.join 0x0d 0x0a (r.requestLine :: r.fields.map headerLine)).length - 2

theorem headerEnd_add (r : Request) : r.headerEnd + 2
    = (Lines.join 0x0d 0x0a (r.requestLine :: r.fields.map headerLine)).length := by
  rw [headerEnd, Lines.length_join_cons]
  omega

theorem Sendable.find_headerTerminator (h : r.Sendable) :
    find headerTerminator r.wire = some r.headerEnd := by
  rw [wire_eq]
  refine Lines.find_blank (by decide) r.body h.notMem_requestLine fun line hline => ?_
  obtain ⟨field, hfield, rfl⟩ := List.mem_map.1 hline
  exact ⟨headerLine_ne_nil field, (h.legible field hfield).notMem_headerLine⟩

/-- The headers of the request are found under the names they are kept under. -/
theorem received_header {field : Bytes × Bytes} (hfield : field ∈ r.fields) :
    r.received.headers[keptName field]? = some field.2 :=
  TreeMap.getElem?_foldl_insert_of_mem r.fields_nodup hfield

theorem received_header_none {name : Bytes} (hname : name ∉ r.fields.map keptName) :
    r.received.headers[name]? = none := by
  have hnone : ∀ field ∈ r.fields, keptName field ≠ name := fun field hfield heq =>
    hname (List.mem_map.2 ⟨field, hfield, heq⟩)
  have hget : (insertAll ∅ r.fields)[name]? = (∅ : Headers)[name]? :=
    TreeMap.getElem?_foldl_insert_of_notMem hnone
  rw [Std.ExtTreeMap.getElem?_empty] at hget
  exact hget

theorem mem_contentLength (hbody : r.body ≠ []) :
    (bytes "Content-Length", decimal r.body.length) ∈ r.fields := by
  simp [fields, hbody]

theorem contentLength_names (hbody : r.body = []) :
    bytes "content-length" ∉ r.fields.map keptName := by
  have hnames : (r.fields.map keptName).Sublist (headerNames.take 5) := by
    have hlower : LinuxHttpServer.lowerAscii (bytes "Host") = bytes "host"
        ∧ LinuxHttpServer.lowerAscii (bytes "Connection") = bytes "connection"
        ∧ LinuxHttpServer.lowerAscii (bytes "X-Correlation-ID") = bytes "x-correlation-id"
        ∧ LinuxHttpServer.lowerAscii (bytes "Authorization") = bytes "authorization"
        ∧ LinuxHttpServer.lowerAscii (bytes "X-HVC-Device-ID") = bytes "x-hvc-device-id" := by
      decide
    obtain ⟨hhost, hconnection, hcorrelation, hauthorization, hdevice⟩ := hlower
    unfold fields optionalField headerNames
    rw [if_pos hbody]
    split_ifs <;> simp [keptName, hhost, hconnection, hcorrelation, hauthorization, hdevice]
  have hnot : bytes "content-length" ∉ headerNames.take 5 := by decide
  exact fun hmem => hnot (hnames.subset hmem)

theorem Sendable.contentLength_received (h : r.Sendable) :
    contentLength { r.received with body := [] } = some r.body.length := by
  have hlower : Network.asciiLower (bytes "content-length") = bytes "content-length"
      ∧ keptName (bytes "Content-Length", decimal r.body.length) = bytes "content-length" := by
    have hlower : LinuxHttpServer.lowerAscii (bytes "Content-Length") = bytes "content-length" := by
      decide
    exact ⟨by decide, hlower⟩
  unfold contentLength HttpRequest.header
  rw [hlower.1]
  by_cases hbody : r.body = []
  · have hnone := received_header_none (contentLength_names hbody)
    simp only
    rw [hnone, hbody]
    rfl
  · have hsome := received_header (mem_contentLength hbody)
    rw [hlower.2] at hsome
    simp only
    have hlimit := h.body
    have hsize : r.body.length < UInt64.size := by
      have hmaximum : maximumBodyBytes < UInt64.size := by decide
      omega
    rw [hsome, Option.getD_some]
    exact (if_neg (Encoding.decimal_ne_nil _)).trans (JsonParser.fromChars_decimal hsize)

theorem Sendable.parseHeader_wire (h : r.Sendable) :
    parseHeader r.wire r.headerEnd = .ok ⟨{ r.received with body := [] }, r.body.length⟩ := by
  have hline : find lineTerminator r.wire = some r.requestLine.length := by
    rw [wire_eq, Lines.join_cons, List.append_assoc]
    exact Lines.find_lineEnd h.notMem_requestLine _
  have htake : r.wire.take r.requestLine.length = r.requestLine := by
    rw [wire_eq, Lines.join_cons, List.append_assoc, List.take_left]
  have hend := r.headerEnd_add
  rw [Lines.length_join_cons] at hend
  have hheaders : parseHeaders r.wire r.headerEnd (r.requestLine.length + 2) ∅
      = .ok r.received.headers := by
    have hsplit : r.wire = (r.requestLine ++ [0x0d, 0x0a])
        ++ (Lines.join 0x0d 0x0a (r.fields.map headerLine) ++ (0x0d :: 0x0a :: r.body)) := by
      rw [wire_eq, Lines.join_cons]
      simp
    have hlength : r.requestLine.length + 2 = (r.requestLine ++ [0x0d, 0x0a]).length := by simp
    rw [hsplit, hlength]
    refine parseHeaders_lines h.legible r.fields_nodup (by simp) ?_
    rw [← hlength]
    exact hend
  have htransfer : bytes "transfer-encoding" ∉ r.fields.map keptName := by
    have hnot : bytes "transfer-encoding" ∉ headerNames := by decide
    exact fun hmem => hnot (r.fields_names.subset hmem)
  have hlower : Network.asciiLower (bytes "transfer-encoding") = bytes "transfer-encoding" := by
    decide
  have hencoding : ({ r.received with body := [] } : HttpRequest).header "transfer-encoding" = [] := by
    unfold HttpRequest.header
    rw [hlower]
    simp only
    rw [received_header_none htransfer]
    rfl
  have hlimit := h.body
  unfold parseHeader
  rw [hline]
  simp only
  rw [if_neg (by omega), htake, h.parseRequestLine_eq]
  show (parseHeaders r.wire r.headerEnd (r.requestLine.length + 2) ∅ >>= _) = _
  rw [hheaders]
  show parseContentLength { r.received with body := [] } = _
  unfold parseContentLength
  rw [if_neg (by simp [hencoding]), h.contentLength_received]
  simp only
  rw [if_neg (by omega)]

/-- However the bytes of the request are cut, the server reads the request. -/
theorem Sendable.readRequest_wire (h : r.Sendable) (streamEnd : StreamEnd) {chunks : List Bytes}
    (hcut : Cut bufferBytes r.wire chunks) : readRequest streamEnd chunks = .ok r.received := by
  have hlength : r.wire.length = r.headerEnd + 4 + r.body.length := by
    have hend := r.headerEnd_add
    rw [wire_eq, List.length_append, ← hend, List.length_cons, List.length_cons]
    omega
  have hterminator : headerTerminator.length = 4 := rfl
  have hheader := h.header
  have hread : readRequest streamEnd chunks = outcome streamEnd r.wire r.headerEnd := by
    rcases readRequest_cases h.find_headerTerminator hcut with ⟨-, hlong⟩ | ⟨hread, -⟩
    · omega
    · exact hread
  have hdrop : r.wire.drop (r.headerEnd + headerTerminator.length) = r.body := by
    have hsplit : r.wire = (Lines.join 0x0d 0x0a (r.requestLine :: r.fields.map headerLine)
        ++ [0x0d, 0x0a]) ++ r.body := by
      rw [wire_eq]
      simp
    have hfront : r.headerEnd + headerTerminator.length = (Lines.join 0x0d 0x0a (r.requestLine ::
        r.fields.map headerLine) ++ [0x0d, 0x0a]).length := by
      have hend := r.headerEnd_add
      rw [List.length_append, ← hend, hterminator]
      rfl
    rw [hfront, hsplit, List.drop_left]
  rw [hread]
  unfold outcome
  rw [h.parseHeader_wire]
  have henough : r.headerEnd + headerTerminator.length + r.body.length ≤ r.wire.length := by omega
  show (if r.headerEnd + headerTerminator.length + r.body.length ≤ r.wire.length then _ else _) = _
  rw [if_pos henough, hdrop, List.take_length]
  rfl

end Request

/-! ## The response -/

/-- A response whose status has three digits and whose headers have no carriage return. -/
structure Writable (response : VoxTree.HttpResponse) : Prop where
  status : 100 ≤ response.statusCode ∧ response.statusCode ≤ 999
  headers : ∀ header ∈ response.headers.toList, 0x0d ∉ header.1 ∧ 0x0d ∉ header.2

def statusLine (response : VoxTree.HttpResponse) : Bytes :=
  bytes "HTTP/1.1" ++ (0x20 :: bytes (toString response.statusCode)
    ++ (0x20 :: bytes (statusReason response.statusCode)))

/-- All header lines of a response. -/
def responseLines (response : VoxTree.HttpResponse) : List Bytes :=
  response.headers.toList.map headerLine
    ++ [bytes "content-length: " ++ decimal response.body.length, bytes "connection: close"]

theorem sendResponse_eq (response : VoxTree.HttpResponse) : sendResponse response
    = Lines.join 0x0d 0x0a (statusLine response :: responseLines response)
      ++ (0x0d :: 0x0a :: response.body) := by
  have hversion : bytes "HTTP/1.1 " = bytes "HTTP/1.1" ++ [0x20] := by decide
  have hconnection : bytes "\r\nconnection: close\r\n\r\n"
      = 0x0d :: 0x0a :: bytes "connection: close" ++ [0x0d, 0x0a, 0x0d, 0x0a] := by
    decide
  have hend : bytes "\r\n" = [0x0d, 0x0a] := by decide
  have hspace : bytes " " = [0x20] := by decide
  have hheaders : response.headers.toList.flatMap (fun header => headerLine header ++ bytes "\r\n")
      = Lines.join 0x0d 0x0a (response.headers.toList.map headerLine) := by
    rw [hend, Lines.join, List.flatMap_map]
  unfold sendResponse statusLine responseLines
  rw [hheaders, hversion, hconnection, hend, hspace]
  simp [Lines.join]

theorem notMem_bytes_ite {c : Prop} [Decidable c] {b : UInt8} {s s' : String} (h : b ∉ bytes s)
    (h' : b ∉ bytes s') : b ∉ bytes (if c then s else s') := by
  split_ifs
  · exact h
  · exact h'

theorem notMem_statusReason (status : Int) : 0x0d ∉ bytes (statusReason status) := by
  unfold statusReason
  iterate 13 refine notMem_bytes_ite (by decide) ?_
  decide

namespace Writable

variable {response : VoxTree.HttpResponse} (h : Writable response)

include h

/-- The status is written as the decimal text of a natural number. -/
theorem status_eq : ∃ status : ℕ, response.statusCode = status ∧ 100 ≤ status ∧ status < 1000
    ∧ bytes (toString response.statusCode) = decimal status := by
  obtain ⟨hlow, hhigh⟩ := h.status
  obtain ⟨status, hstatus⟩ := Int.eq_ofNat_of_zero_le (show 0 ≤ response.statusCode by omega)
  rw [hstatus] at hlow hhigh ⊢
  exact ⟨status, rfl, by omega, by omega, rfl⟩

theorem notMem_statusLine : 0x0d ∉ statusLine response := by
  obtain ⟨status, -, -, -, htext⟩ := h.status_eq
  have hdigits := (digits_decimal status).1
  have hversion : 0x0d ∉ bytes "HTTP/1.1" := by decide
  rw [statusLine, htext]
  simp only [List.mem_append, List.mem_cons, not_or]
  exact ⟨hversion, ⟨by decide, hdigits⟩, by decide, notMem_statusReason _⟩

theorem lines : ∀ line ∈ responseLines response, line ≠ [] ∧ 0x0d ∉ line := by
  unfold responseLines
  simp only [List.mem_append, List.mem_map, List.mem_cons, List.not_mem_nil, or_false]
  rintro line (⟨header, hheader, rfl⟩ | rfl | rfl)
  · have hreturn := h.headers header hheader
    refine ⟨headerLine_ne_nil header, ?_⟩
    simp [headerLine_eq, hreturn.1, hreturn.2]
  · have hname : bytes "content-length: " ≠ [] ∧ 0x0d ∉ bytes "content-length: " := by
      decide
    refine ⟨by simp [hname.1], fun hmem => ?_⟩
    exact (List.mem_append.1 hmem).elim hname.2 (digits_decimal _).1
  · decide

end Writable

theorem length_decimal {n : ℕ} (hlow : 100 ≤ n) (hhigh : n < 1000) : (decimal n).length = 3 := by
  obtain ⟨a, b, c, ha, ha', hb, hc, rfl⟩ : ∃ a b c, 0 < a ∧ a < 10 ∧ b < 10 ∧ c < 10
      ∧ n = 10 * (10 * a + b) + c :=
    ⟨n / 100, n / 10 % 10, n % 10, by omega, by omega, by omega, by omega, by omega⟩
  have hlength : (Encoding.decimal (10 * (10 * a + b) + c)).length = 3 := by
    rw [Encoding.decimal_ten_mul_add (by omega) hc, Encoding.decimal_ten_mul_add ha hb,
      Encoding.decimal_of_lt ha']
    rfl
  exact hlength

theorem fromChars_decimal (n : ℕ) : fromChars (decimal n) = some (n : Int) := by
  have hclosed : JsonParser.Closed [] := rfl
  have htake := JsonParser.takeWhile_decimal_append n hclosed
  have hread := Encoding.readDecimal_decimal n hclosed
  rw [List.append_nil] at htake hread
  have hfold : (decimal n).foldl (fun value digit => 10 * value + (digit.toNat - 0x30)) 0 = n :=
    htake ▸ (Prod.mk.inj hread).1
  obtain ⟨digit, digits, hdecimal, hdigit⟩ := JsonParser.decimal_cons n
  have hminus : digit ≠ 0x2d := fun heq => by simp [heq, isDigit] at hdigit
  have hne : decimal n ≠ [] := Encoding.decimal_ne_nil n
  unfold fromChars
  split
  · rename_i rest hrest
    rw [hdecimal] at hrest
    exact absurd (List.cons.inj hrest).1 hminus
  · simp only
    rw [htake, if_neg hne, hfold]

namespace Writable

variable {response : VoxTree.HttpResponse} (h : Writable response)

include h

theorem find_headerTerminator : ∃ bodyStart, find headerTerminator (sendResponse response)
      = some bodyStart
    ∧ (sendResponse response).drop (bodyStart + headerTerminator.length) = response.body := by
  have hfind : find headerTerminator (sendResponse response)
      = some ((Lines.join 0x0d 0x0a (statusLine response :: responseLines response)).length - 2) := by
    rw [sendResponse_eq]
    exact Lines.find_blank (by decide) response.body h.notMem_statusLine h.lines
  refine ⟨_, hfind, ?_⟩
  have hsplit : sendResponse response = (Lines.join 0x0d 0x0a (statusLine response ::
      responseLines response) ++ [0x0d, 0x0a]) ++ response.body := by
    rw [sendResponse_eq]
    simp
  have hlength : (Lines.join 0x0d 0x0a (statusLine response :: responseLines response)).length - 2
        + headerTerminator.length
      = (Lines.join 0x0d 0x0a (statusLine response :: responseLines response)
        ++ [0x0d, 0x0a]).length := by
    have hterminator : headerTerminator.length = 4 := rfl
    rw [List.length_append, Lines.length_join_cons, hterminator]
    simp only [List.length_cons, List.length_nil]
    omega
  rw [hlength, hsplit, List.drop_left]

/-- The load driver reads the status and the body of a response. -/
theorem readResponse_sendResponse :
    readResponse (sendResponse response) = .ok ⟨response.statusCode, response.body⟩ := by
  obtain ⟨status, hstatus, hlow, hhigh, htext⟩ := h.status_eq
  obtain ⟨bodyStart, hbody, hdrop⟩ := h.find_headerTerminator
  have hversion : 0x20 ∉ bytes "HTTP/1.1" := by decide
  have hline : find lineTerminator (sendResponse response)
      = some (statusLine response).length := by
    rw [sendResponse_eq, Lines.join_cons, List.append_assoc]
    exact Lines.find_lineEnd h.notMem_statusLine _
  have hfront : ∃ rest, sendResponse response
      = bytes "HTTP/1.1" ++ (0x20 :: (decimal status ++ rest)) := by
    rw [sendResponse_eq, Lines.join_cons, statusLine, htext]
    exact ⟨_, by simp only [List.append_assoc, List.cons_append]; rfl⟩
  obtain ⟨rest, hfront⟩ := hfront
  have hspace : find [0x20] (sendResponse response) = some (bytes "HTTP/1.1").length := by
    rw [hfront]
    exact Lines.find_symbol hversion _
  have hdigits : ((sendResponse response).drop ((bytes "HTTP/1.1").length + 1)).take 3
      = decimal status := by
    rw [hfront, ← List.drop_drop, List.drop_left, List.drop_succ_cons, List.drop_zero,
      ← length_decimal hlow hhigh, List.take_left]
  have hbefore : ¬(statusLine response).length ≤ (bytes "HTTP/1.1").length := by
    rw [statusLine, List.length_append, List.cons_append, List.length_cons]
    omega
  unfold readResponse
  rw [hline, hbody, hspace]
  simp only
  rw [if_neg hbefore, hdigits, fromChars_decimal, hdrop, hstatus]

end Writable

theorem receiveAll_of_le : ∀ {chunks : List Bytes} {response : Bytes},
    (response ++ chunks.flatten).length ≤ maximumResponseBytes →
      receiveAll response chunks = .ok (response ++ chunks.flatten)
  | [], response, _ => by simp [receiveAll]
  | chunk :: chunks, response, h => by
    rw [List.flatten_cons, ← List.append_assoc] at h ⊢
    have hchunk : ¬maximumResponseBytes < (response ++ chunk).length := by
      rw [List.length_append] at h
      omega
    rw [receiveAll, if_neg hchunk]
    exact receiveAll_of_le h

/-- However the bytes of a response arrive, the load driver reads the response. -/
theorem Writable.receive_sendResponse {response : VoxTree.HttpResponse} (h : Writable response)
    (hsize : (sendResponse response).length ≤ maximumResponseBytes) {chunks : List Bytes}
    (hchunks : chunks.flatten = sendResponse response) :
    receive chunks = .ok ⟨response.statusCode, response.body⟩ := by
  have hall : receiveAll [] chunks = .ok ([] ++ chunks.flatten) :=
    receiveAll_of_le (by rwa [List.nil_append, hchunks])
  rw [List.nil_append, hchunks] at hall
  unfold receive
  rw [hall]
  exact h.readResponse_sendResponse

/-! ## Both ways -/

/-- However the bytes are cut on their way, the handler is asked what the load driver asked, and
the load driver is told what the handler answered. -/
theorem exchange {r : Request} (h : r.Sendable) {handler : Handler}
    {response : VoxTree.HttpResponse} (hanswer : handler r.received = some response)
    (hwritable : Writable response)
    (hsize : (sendResponse response).length ≤ maximumResponseBytes) (streamEnd : StreamEnd)
    {sent : List Bytes} (hsent : Cut bufferBytes r.wire sent) :
    ∃ answer, processClient handler ⟨sent, streamEnd⟩ = some answer
      ∧ ∀ arrived : List Bytes, arrived.flatten = answer →
        receive arrived = .ok ⟨response.statusCode, response.body⟩ := by
  refine ⟨sendResponse response, ?_, fun arrived harrived =>
    hwritable.receive_sendResponse hsize harrived⟩
  unfold processClient
  simp only
  rw [h.readRequest_wire streamEnd hsent]
  simp [hanswer]

section Samples

/-- The first request of a virtual player. -/
def createSession : Request where
  method := bytes "POST"
  target := bytes "/api/v1/sessions"
  authorization := bytes "Bearer hvc-load-token-0000"
  device := bytes "load-device-0000"
  host := bytes "127.0.0.1"
  started := 1000

def accepted : VoxTree.HttpResponse :=
  Network.jsonResponse 201 (bytes "\x7b\"session_id\":\"a\"\x7d")

theorem sendable_createSession : createSession.Sendable where
  method := by decide
  target := by decide
  host := by decide
  authorization := by decide
  device := by decide
  header := by decide +kernel
  body := by decide

theorem writable_accepted : Writable accepted where
  status := by decide
  headers := by decide

theorem exchange_createSession : ∃ answer, processClient (fun _ => some accepted)
      ⟨singles createSession.wire, .closed⟩ = some answer
    ∧ ∀ arrived : List Bytes, arrived.flatten = answer →
      receive arrived = .ok ⟨201, bytes "\x7b\"session_id\":\"a\"\x7d"⟩ :=
  exchange sendable_createSession rfl writable_accepted (by decide +kernel) .closed
    (cut_singles (by decide) _)

end Samples

end LoadDriver

end VoxTree
