import VoxTree.LinuxHttpServer

/-!
# What a request depends on

The limit of the header section is tested before each `recv` and not on the section. A section that
ends within the limit is always read and one that ends a whole buffer behind it never
(`readHeader_cases`); in between it depends on where the stream is cut. What is then made of the
stream depends on its bytes alone (`readRequest_outcome`).
-/

namespace VoxTree.LinuxHttpServer

open Search

/-! ## What is asked of a stream -/

/-- What is asked of an accepted request. -/
structure WithinLimits (stream : Bytes) (request : HttpRequest) : Prop where
  /-- The header section with its end is at most 16 KiB. -/
  header : ∃ headerEnd, find headerTerminator stream = some headerEnd
    ∧ headerEnd + headerTerminator.length ≤ maximumHeaderBytes
  /-- The body has the announced length and is at most 64 KiB. -/
  body : contentLength request = some request.body.length
    ∧ request.body.length ≤ maximumBodyBytes

/-- However the stream is cut, the request or the error is the same, and a request is within the
limits. -/
structure CutIndependent (streamEnd : StreamEnd) (stream : Bytes) : Prop where
  same : ∀ chunks chunks', Cut bufferBytes stream chunks → Cut bufferBytes stream chunks' →
    readRequest streamEnd chunks = readRequest streamEnd chunks'
  limited : ∀ chunks request, Cut bufferBytes stream chunks →
    readRequest streamEnd chunks = .ok request → WithinLimits stream request

/-! ## Reading the header section -/

theorem headerTerminator_ne_nil : headerTerminator ≠ [] := List.cons_ne_nil _ _

theorem lineTerminator_ne_nil : lineTerminator ≠ [] := List.cons_ne_nil _ _

section ReadHeader

variable (streamEnd : StreamEnd) {stream : Bytes}

/-- Where the header section ends at `n`, it is read, or the limit is reached before. -/
theorem readHeader_cases {n : ℕ} (hfind : find headerTerminator stream = some n) :
    ∀ {chunks : List Bytes} {received : Bytes}, received ++ chunks.flatten = stream →
      (∀ chunk ∈ chunks, chunk.length ≤ bufferBytes) →
      received.length < n + headerTerminator.length →
      (readHeader streamEnd received chunks = .error headersTooLarge
        ∧ maximumHeaderBytes < n + headerTerminator.length)
      ∨ ∃ read, readHeader streamEnd received chunks = .ok read ∧ read.headerEnd = n
        ∧ read.received ++ read.rest.flatten = stream
        ∧ n + headerTerminator.length ≤ read.received.length
        ∧ n + headerTerminator.length < maximumHeaderBytes + bufferBytes
  | [], received, hstream, _, hbefore => by
    have hle := find_le headerTerminator_ne_nil hfind
    rw [List.flatten_nil, List.append_nil] at hstream
    rw [hstream] at hbefore
    omega
  | chunk :: rest, received, hstream, hsize, hbefore => by
    unfold readHeader
    by_cases hfull : maximumHeaderBytes ≤ received.length
    · exact .inl ⟨if_pos hfull, by omega⟩
    rw [if_neg hfull]
    have hchunk := hsize chunk List.mem_cons_self
    rw [List.flatten_cons, ← List.append_assoc] at hstream
    have hfront : received ++ chunk <+: stream := ⟨_, hstream⟩
    by_cases hreached : n + headerTerminator.length ≤ (received ++ chunk).length
    · rw [find_of_reached headerTerminator_ne_nil hfront hfind hreached]
      refine .inr ⟨_, rfl, rfl, hstream, hreached, ?_⟩
      rw [List.length_append] at hreached
      omega
    · rw [find_eq_none_of_lt headerTerminator_ne_nil hfront hfind (by omega)]
      exact readHeader_cases hfind hstream
        (fun chunk' hchunk' => hsize chunk' (List.mem_cons_of_mem _ hchunk')) (by omega)

/-- Where the header section does not end, the length of the stream decides. -/
theorem readHeader_of_none (hfind : find headerTerminator stream = none) :
    ∀ {chunks : List Bytes} {received : Bytes}, received ++ chunks.flatten = stream →
      readHeader streamEnd received chunks
        = .error (if maximumHeaderBytes ≤ stream.length then headersTooLarge
            else streamEnd.error "incomplete_request")
  | [], received, hstream => by
    rw [List.flatten_nil, List.append_nil] at hstream
    subst hstream
    unfold readHeader
    split_ifs <;> rfl
  | chunk :: rest, received, hstream => by
    unfold readHeader
    by_cases hfull : maximumHeaderBytes ≤ received.length
    · have hlong : maximumHeaderBytes ≤ stream.length := by
        rw [← hstream, List.length_append]
        omega
      rw [if_pos hfull, if_pos hlong]
    rw [if_neg hfull]
    rw [List.flatten_cons, ← List.append_assoc] at hstream
    have hfront : received ++ chunk <+: stream := ⟨_, hstream⟩
    rw [find_eq_none_of_none headerTerminator_ne_nil hfront hfind]
    exact readHeader_of_none hfind hstream

/-- Byte by byte the limit is reached before the end of a longer header section. -/
theorem readHeader_singles {n : ℕ} (hlong : maximumHeaderBytes < n + headerTerminator.length) :
    ∀ {l received : Bytes}, find headerTerminator (received ++ l) = some n →
      received.length ≤ maximumHeaderBytes →
      readHeader streamEnd received (singles l) = .error headersTooLarge
  | [], received, hfind, hreceived => by
    have hle := find_le headerTerminator_ne_nil hfind
    rw [List.append_nil] at hle
    omega
  | b :: l, received, hfind, hreceived => by
    show readHeader streamEnd received ([b] :: singles l) = _
    unfold readHeader
    by_cases hfull : maximumHeaderBytes ≤ received.length
    · exact if_pos hfull
    have hsplit : received ++ b :: l = received ++ [b] ++ l := by simp
    rw [hsplit] at hfind
    have hlength : (received ++ [b]).length = received.length + 1 := by simp
    rw [if_neg hfull, find_eq_none_of_lt headerTerminator_ne_nil (List.prefix_append _ l) hfind
      (by omega)]
    exact readHeader_singles hlong hfind (by omega)

/-- A chunk that is received below the limit may reach over the end of the header section. -/
theorem readHeader_jump {n : ℕ} {chunk : Bytes} {rest : List Bytes} :
    ∀ {l received : Bytes},
      find headerTerminator (received ++ l ++ (chunk ++ rest.flatten)) = some n →
      received.length + l.length < maximumHeaderBytes →
      received.length + l.length < n + headerTerminator.length →
      n + headerTerminator.length ≤ received.length + l.length + chunk.length →
      readHeader streamEnd received (singles l ++ chunk :: rest)
        = .ok ⟨n, received ++ l ++ chunk, rest⟩
  | [], received, hfind, hroom, hbefore, hbehind => by
    rw [List.length_nil, Nat.add_zero] at hroom hbehind
    rw [List.append_nil] at hfind ⊢
    show readHeader streamEnd received (chunk :: rest) = _
    rw [← List.append_assoc] at hfind
    unfold readHeader
    rw [if_neg (by omega), find_of_reached headerTerminator_ne_nil
      (List.prefix_append _ rest.flatten) hfind (by rw [List.length_append]; omega)]
  | b :: l, received, hfind, hroom, hbefore, hbehind => by
    have hsplit : received ++ b :: l = received ++ [b] ++ l := by simp
    have hlength : (received ++ [b]).length = received.length + 1 := by simp
    rw [List.length_cons] at hroom hbefore hbehind
    rw [hsplit] at hfind ⊢
    show readHeader streamEnd received ([b] :: (singles l ++ chunk :: rest)) = _
    unfold readHeader
    rw [if_neg (by omega)]
    have hfront : received ++ [b] <+: received ++ [b] ++ l ++ (chunk ++ rest.flatten) := by
      rw [List.append_assoc]
      exact List.prefix_append _ _
    rw [find_eq_none_of_lt headerTerminator_ne_nil hfront hfind (by omega)]
    exact readHeader_jump hfind (by omega) (by omega) (by omega)

end ReadHeader

/-! ## The header section -/

/-- The end of the header section ends a line. -/
theorem lineTerminator_of_headerTerminator {l : Bytes} (h : headerTerminator <+: l) :
    lineTerminator <+: l :=
  List.IsPrefix.trans ⟨[0x0d, 0x0a], rfl⟩ h

section Append

variable {received : Bytes} {headerEnd : ℕ}
  (hend : headerTerminator <+: received.drop headerEnd)

include hend

theorem headerEnd_lt : headerEnd < received.length := by
  have hlength := hend.length_le
  rw [List.length_drop] at hlength
  have : headerTerminator.length = 4 := rfl
  omega

/-- Up to the end of the header section each line ends. -/
theorem exists_lineEnd {lineStart : ℕ} (h : lineStart ≤ headerEnd) :
    ∃ length ≤ headerEnd - lineStart, find lineTerminator (received.drop lineStart) = some length := by
  refine exists_find ?_
  rw [List.drop_drop, Nat.add_sub_of_le h]
  exact lineTerminator_of_headerTerminator hend

/-- The lines of the header section do not depend on what was received behind it. -/
theorem parseHeaders_append (extra : Bytes) (lineStart : ℕ) (headers : Headers) :
    parseHeaders (received ++ extra) headerEnd lineStart headers
      = parseHeaders received headerEnd lineStart headers := by
  induction hleft : headerEnd - lineStart using Nat.strongRecOn
    generalizing lineStart headers with
  | ind left ih =>
    unfold parseHeaders
    by_cases hline : lineStart < headerEnd
    · rw [if_pos hline, if_pos hline]
      obtain ⟨length, hle, hfind⟩ := exists_lineEnd hend (Nat.le_of_lt hline)
      have hlt := headerEnd_lt hend
      have hinside : length ≤ (received.drop lineStart).length := by
        rw [List.length_drop]
        omega
      rw [List.drop_append_of_le_length (by omega),
        find_append lineTerminator_ne_nil extra hfind, hfind]
      simp only [List.take_append_of_le_length hinside]
      split_ifs
      · rfl
      · split
        · rfl
        · split_ifs
          · rfl
          · exact ih _ (by omega) _ _ rfl
    · rw [if_neg hline, if_neg hline]

theorem parseHeader_append (extra : Bytes) :
    parseHeader (received ++ extra) headerEnd = parseHeader received headerEnd := by
  obtain ⟨requestLineEnd, hle, hfind⟩ := exists_lineEnd hend (Nat.zero_le headerEnd)
  have hlt := headerEnd_lt hend
  rw [List.drop_zero] at hfind
  unfold parseHeader
  rw [find_append lineTerminator_ne_nil extra hfind, hfind]
  simp only [List.take_append_of_le_length (show requestLineEnd ≤ received.length by omega),
    parseHeaders_append hend]

end Append

/-! ## Errors -/

theorem protocolError_ne (code : String) : protocolError 400 code ≠ headersTooLarge := by
  intro h
  have hstatus : (400 : Int) = 413 := congrArg HttpResponse.statusCode h
  omega

theorem bodyTooLarge_ne : protocolError 413 "body_too_large" ≠ headersTooLarge := by
  intro h
  have hbody := congrArg HttpResponse.body h
  simp only [headersTooLarge, protocolError, List.append_left_inj, List.append_right_inj] at hbody
  revert hbody
  decide

theorem StreamEnd.error_ne (streamEnd : StreamEnd) (code : String) :
    streamEnd.error code ≠ headersTooLarge := by
  cases streamEnd with
  | closed => exact protocolError_ne code
  | failed => exact protocolError_ne _

theorem parseRequestLine_ne (requestLine : Bytes) :
    parseRequestLine requestLine ≠ .error headersTooLarge := by
  unfold parseRequestLine
  have hne := protocolError_ne
  rcases find [0x20] requestLine with _ | firstSpace
  · simpa using hne _
  · simp only
    rcases find [0x20] (requestLine.drop (firstSpace + 1)) with _ | length
    · simpa using hne _
    · simp only
      split_ifs
      · simpa using hne _
      · simpa using hne _
      · intro h
        cases h

theorem parseHeaders_ne (received : Bytes) (headerEnd lineStart : ℕ) (headers : Headers) :
    parseHeaders received headerEnd lineStart headers ≠ .error headersTooLarge := by
  have hne := protocolError_ne
  fun_induction parseHeaders received headerEnd lineStart headers with
  | case1 => simpa using hne _
  | case2 => simpa using hne _
  | case3 => simpa using hne _
  | case4 => simpa using hne _
  | case5 => assumption
  | case6 => exact nofun

theorem parseContentLength_ne (request : HttpRequest) :
    parseContentLength request ≠ .error headersTooLarge := by
  unfold parseContentLength
  split_ifs
  · simpa using protocolError_ne _
  · rcases contentLength request with _ | length
    · simpa using protocolError_ne _
    · simp only
      split_ifs
      · simpa using bodyTooLarge_ne
      · exact nofun

/-- No step of a sequence fails with an error that none of them has. -/
theorem bind_ne {α β : Type} {e : HttpResponse} {x : Except HttpResponse α}
    {f : α → Except HttpResponse β} (hx : x ≠ .error e) (hf : ∀ a, f a ≠ .error e) :
    (x >>= f) ≠ .error e := by
  rcases x with e' | a
  · simpa [bind, Except.bind] using hx
  · exact hf a

theorem parseHeader_ne (received : Bytes) (headerEnd : ℕ) :
    parseHeader received headerEnd ≠ .error headersTooLarge := by
  unfold parseHeader
  split
  · simpa using protocolError_ne _
  · split_ifs
    · simpa using protocolError_ne _
    · exact bind_ne (parseRequestLine_ne _) fun request =>
        bind_ne (parseHeaders_ne _ _ _ _) fun headers => parseContentLength_ne _

/-! ## Accepted headers -/

theorem bind_ok {α β : Type} {x : Except HttpResponse α} {f : α → Except HttpResponse β} {b : β}
    (h : (x >>= f) = .ok b) : ∃ a, x = .ok a ∧ f a = .ok b := by
  rcases x with e | a
  · cases h
  · exact ⟨a, rfl, h⟩

theorem parseContentLength_ok {request : HttpRequest} {parsed : ParsedHeader}
    (h : parseContentLength request = .ok parsed) :
    contentLength parsed.request = some parsed.contentLength
      ∧ parsed.contentLength ≤ maximumBodyBytes := by
  unfold parseContentLength at h
  split_ifs at h with htransfer
  split at h
  · cases h
  · rename_i length hlength
    split_ifs at h with hlarge
    obtain rfl := Except.ok.inj h
    exact ⟨hlength, Nat.le_of_not_lt hlarge⟩

theorem parseHeader_ok {received : Bytes} {headerEnd : ℕ} {parsed : ParsedHeader}
    (h : parseHeader received headerEnd = .ok parsed) :
    contentLength parsed.request = some parsed.contentLength
      ∧ parsed.contentLength ≤ maximumBodyBytes := by
  unfold parseHeader at h
  split at h
  · cases h
  · split_ifs at h
    obtain ⟨request, -, h⟩ := bind_ok h
    obtain ⟨headers, -, h⟩ := bind_ok h
    exact parseContentLength_ok h

/-! ## The body -/

section ReadBody

variable (streamEnd : StreamEnd) {totalSize : ℕ}

/-- The body is read when the stream has it. -/
theorem readBody_of_le : ∀ {chunks : List Bytes} {received : Bytes},
    totalSize ≤ (received ++ chunks.flatten).length →
      ∃ received', readBody streamEnd totalSize received chunks = .ok received'
        ∧ received' <+: received ++ chunks.flatten ∧ totalSize ≤ received'.length
  | [], received, h => by
    rw [List.flatten_nil, List.append_nil] at h ⊢
    exact ⟨received, if_pos h, List.prefix_refl _, h⟩
  | chunk :: rest, received, h => by
    unfold readBody
    by_cases henough : totalSize ≤ received.length
    · rw [if_pos henough]
      exact ⟨received, rfl, List.prefix_append _ _, henough⟩
    rw [if_neg henough]
    by_cases hfits : chunk.length ≤ totalSize - received.length
    · rw [List.flatten_cons, ← List.append_assoc] at h ⊢
      rw [List.take_of_length_le hfits]
      exact readBody_of_le h
    · -- the buffer ends with the body
      have hlength : totalSize
          ≤ (received ++ chunk.take (totalSize - received.length)).length := by
        rw [List.length_append, List.length_take]
        omega
      have hfront : received ++ chunk.take (totalSize - received.length)
          <+: received ++ (chunk :: rest).flatten := by
        rw [List.flatten_cons, List.prefix_append_right_inj]
        exact List.IsPrefix.trans ⟨_, List.take_append_drop _ _⟩ (List.prefix_append _ _)
      refine ⟨_, ?_, hfront, hlength⟩
      rcases rest with _ | ⟨chunk', rest⟩ <;> exact if_pos hlength

theorem readBody_of_lt : ∀ {chunks : List Bytes} {received : Bytes},
    (received ++ chunks.flatten).length < totalSize →
      readBody streamEnd totalSize received chunks = .error (streamEnd.error "incomplete_body")
  | [], received, h => by
    rw [List.flatten_nil, List.append_nil] at h
    exact if_neg (Nat.not_le_of_lt h)
  | chunk :: rest, received, h => by
    rw [List.flatten_cons, ← List.append_assoc] at h
    have hlength := h
    rw [List.length_append, List.length_append] at hlength
    unfold readBody
    rw [if_neg (by omega), List.take_of_length_le (by omega)]
    exact readBody_of_lt h

end ReadBody

/-! ## Requests -/

/-- What is made of a stream whose header section ends at `headerEnd`. -/
def outcome (streamEnd : StreamEnd) (stream : Bytes) (headerEnd : ℕ) :
    Except HttpResponse HttpRequest := do
  let parsed ← parseHeader stream headerEnd
  let bodyStart := headerEnd + headerTerminator.length
  if bodyStart + parsed.contentLength ≤ stream.length then
    .ok { parsed.request with body := (stream.drop bodyStart).take parsed.contentLength }
  else .error (streamEnd.error "incomplete_body")

theorem outcome_ne (streamEnd : StreamEnd) (stream : Bytes) (headerEnd : ℕ) :
    outcome streamEnd stream headerEnd ≠ .error headersTooLarge := by
  refine bind_ne (parseHeader_ne stream headerEnd) fun parsed => ?_
  simp only
  split_ifs
  · exact nofun
  · simpa using streamEnd.error_ne _

theorem outcome_ok {streamEnd : StreamEnd} {stream : Bytes} {headerEnd : ℕ}
    {request : HttpRequest} (h : outcome streamEnd stream headerEnd = .ok request) :
    contentLength request = some request.body.length
      ∧ request.body.length ≤ maximumBodyBytes := by
  obtain ⟨parsed, hparsed, h⟩ := bind_ok h
  obtain ⟨hcontent, hlimit⟩ := parseHeader_ok hparsed
  simp only at h
  split_ifs at h with henough
  obtain rfl := Except.ok.inj h
  have hlength : ((stream.drop (headerEnd + headerTerminator.length)).take
      parsed.contentLength).length = parsed.contentLength := by
    rw [List.length_take, List.length_drop]
    omega
  simp only [hlength]
  exact ⟨hcontent, hlimit⟩

section Requests

variable {streamEnd : StreamEnd} {stream : Bytes} {n : ℕ}

/-- Once the header section is read, only the bytes of the stream matter. -/
theorem readRequest_outcome {chunks : List Bytes} {read : HeaderRead}
    (hread : readHeader streamEnd [] chunks = .ok read) (hn : read.headerEnd = n)
    (hfind : find headerTerminator stream = some n)
    (hstream : read.received ++ read.rest.flatten = stream)
    (hreached : n + headerTerminator.length ≤ read.received.length) :
    readRequest streamEnd chunks = outcome streamEnd stream n := by
  have hend : headerTerminator <+: read.received.drop n :=
    find_sound (find_of_reached headerTerminator_ne_nil ⟨_, hstream⟩ hfind hreached)
  have hparse : parseHeader read.received n = parseHeader stream n := by
    rw [← hstream]
    exact (parseHeader_append hend _).symm
  unfold readRequest outcome
  rw [hread]
  show (parseHeader read.received read.headerEnd >>= _) = _
  rw [hn, hparse]
  rcases parseHeader stream n with e | parsed
  · rfl
  show (readBody streamEnd _ read.received read.rest >>= _) = _
  by_cases henough : n + headerTerminator.length + parsed.contentLength ≤ stream.length
  · obtain ⟨received', hreceived, ⟨behind, hfront⟩, hlength⟩ :=
      readBody_of_le streamEnd (hstream.symm ▸ henough)
    rw [hreceived]
    rw [hstream] at hfront
    rw [← hfront] at henough ⊢
    simp only [bind, Except.bind, if_pos henough]
    rw [List.drop_append_of_le_length (by omega), List.take_append_of_le_length
      (by rw [List.length_drop]; omega)]
  · rw [readBody_of_lt streamEnd (by rw [hstream]; omega)]
    simp only [bind, Except.bind, if_neg henough]

/-- A cut of a stream whose header section ends either reaches the limit or leads to the outcome. -/
theorem readRequest_cases (hfind : find headerTerminator stream = some n) {chunks : List Bytes}
    (h : Cut bufferBytes stream chunks) :
    (readRequest streamEnd chunks = .error headersTooLarge
        ∧ maximumHeaderBytes < n + headerTerminator.length)
      ∨ (readRequest streamEnd chunks = outcome streamEnd stream n
        ∧ n + headerTerminator.length < maximumHeaderBytes + bufferBytes) := by
  have hpositive : ([] : Bytes).length < n + headerTerminator.length := Nat.succ_pos _
  rcases readHeader_cases streamEnd hfind h.flatten (fun chunk hchunk => (h.size chunk hchunk).2)
    hpositive with ⟨hlarge, hlong⟩ | ⟨read, hread, hn, hstream, hreached, hshort⟩
  · refine .inl ⟨?_, hlong⟩
    unfold readRequest
    rw [hlarge]
    rfl
  · exact .inr ⟨readRequest_outcome hread hn hfind hstream hreached, hshort⟩

theorem readRequest_of_none (hfind : find headerTerminator stream = none) {chunks : List Bytes}
    (h : Cut bufferBytes stream chunks) :
    readRequest streamEnd chunks = .error (if maximumHeaderBytes ≤ stream.length then
      headersTooLarge else streamEnd.error "incomplete_request") := by
  unfold readRequest
  rw [readHeader_of_none streamEnd hfind h.flatten]
  rfl

/-- Between the limit and a buffer behind it one cut is refused and another is not. -/
theorem not_cutIndependent (hfind : find headerTerminator stream = some n)
    (hlong : maximumHeaderBytes < n + headerTerminator.length)
    (hshort : n + headerTerminator.length < maximumHeaderBytes + bufferBytes) :
    ¬CutIndependent streamEnd stream := by
  intro h
  have hle := find_le headerTerminator_ne_nil hfind
  have hbuffer : 1 ≤ bufferBytes := by decide
  have hlimit : 1 ≤ maximumHeaderBytes := by decide
  -- all but one byte below the limit, then the rest of the header section at once
  obtain ⟨front, chunk, rest, hstream, hfront, hchunk⟩ : ∃ front chunk rest : Bytes,
      front ++ (chunk ++ rest) = stream ∧ front.length = maximumHeaderBytes - 1
        ∧ chunk.length = n + headerTerminator.length - (maximumHeaderBytes - 1) := by
    refine ⟨stream.take (maximumHeaderBytes - 1), (stream.drop (maximumHeaderBytes - 1)).take
      (n + headerTerminator.length - (maximumHeaderBytes - 1)), (stream.drop
      (maximumHeaderBytes - 1)).drop (n + headerTerminator.length - (maximumHeaderBytes - 1)),
      ?_, ?_, ?_⟩
    · rw [List.take_append_drop, List.take_append_drop]
    · rw [List.length_take]
      omega
    · rw [List.length_take, List.length_drop]
      omega
  have hsingles : readRequest streamEnd (singles stream) = .error headersTooLarge := by
    unfold readRequest
    rw [readHeader_singles streamEnd hlong (by simpa using hfind) (Nat.zero_le _)]
    rfl
  have hjump : readRequest streamEnd (singles front ++ chunk :: singles rest)
      = outcome streamEnd stream n := by
    have hread : readHeader streamEnd [] (singles front ++ chunk :: singles rest)
        = .ok ⟨n, [] ++ front ++ chunk, singles rest⟩ := by
      refine readHeader_jump streamEnd ?_ ?_ ?_ ?_
      · rw [flatten_singles, List.nil_append, hstream]
        exact hfind
      all_goals
        rw [List.length_nil]
        omega
    refine readRequest_outcome hread rfl hfind ?_ ?_
    · rw [flatten_singles, List.nil_append, List.append_assoc, hstream]
    · rw [List.nil_append, List.length_append]
      omega
  have hcut : Cut bufferBytes stream (singles front ++ chunk :: singles rest) := by
    rw [← hstream]
    refine (cut_singles hbuffer front).append ?_
    exact (cut_single (by omega) (by omega)).append (cut_singles hbuffer rest)
  have hsame := h.same _ _ (cut_singles hbuffer stream) hcut
  rw [hsingles, hjump] at hsame
  exact outcome_ne streamEnd stream n hsame.symm

end Requests

/-- Whether a request is read, and which, is independent of the cuts exactly where the header
section does not end between the limit and a buffer behind it. -/
theorem readRequest_cutIndependent_iff (streamEnd : StreamEnd) (stream : Bytes) :
    CutIndependent streamEnd stream ↔ ∀ headerEnd, find headerTerminator stream = some headerEnd →
      headerEnd + headerTerminator.length ≤ maximumHeaderBytes
        ∨ maximumHeaderBytes + bufferBytes ≤ headerEnd + headerTerminator.length := by
  constructor
  · intro h headerEnd hfind
    by_contra hbetween
    exact not_cutIndependent hfind (by omega) (by omega) h
  intro h
  rcases hfind : find headerTerminator stream with _ | n
  · refine ⟨fun chunks chunks' hcut hcut' => ?_, fun chunks request hcut hread => ?_⟩
    · rw [readRequest_of_none hfind hcut, readRequest_of_none hfind hcut']
    · rw [readRequest_of_none hfind hcut] at hread
      cases hread
  rcases h n hfind with hwithin | hbehind
  · have hout : ∀ chunks, Cut bufferBytes stream chunks →
        readRequest streamEnd chunks = outcome streamEnd stream n := by
      intro chunks hcut
      rcases readRequest_cases hfind hcut with ⟨-, hlong⟩ | ⟨hread, -⟩
      · omega
      · exact hread
    refine ⟨fun chunks chunks' hcut hcut' => ?_, fun chunks request hcut hread => ?_⟩
    · rw [hout chunks hcut, hout chunks' hcut']
    · rw [hout chunks hcut] at hread
      exact ⟨⟨n, hfind, hwithin⟩, outcome_ok hread⟩
  · have hlarge : ∀ chunks, Cut bufferBytes stream chunks →
        readRequest streamEnd chunks = .error headersTooLarge := by
      intro chunks hcut
      rcases readRequest_cases hfind hcut with ⟨hread, -⟩ | ⟨-, hshort⟩
      · exact hread
      · omega
    refine ⟨fun chunks chunks' hcut hcut' => ?_, fun chunks request hcut hread => ?_⟩
    · rw [hlarge chunks hcut, hlarge chunks' hcut']
    · rw [hlarge chunks hcut] at hread
      cases hread

/-! ## A long header -/

namespace Sample

/-- A request with a header line of `k + 3` bytes. -/
def longHeader (k : ℕ) : Bytes :=
  bytes "GET /api/v1/health HTTP/1.1"
    ++ (0x0d :: ((0x0a :: bytes "x: " ++ List.replicate k 0x61) ++ headerTerminator))

theorem find_longHeader (k : ℕ) : find headerTerminator (longHeader k) = some (k + 32) := by
  have hname : bytes "x: " = [0x78, 0x3a, 0x20] := by decide
  have hfirst : (bytes "GET /api/v1/health HTTP/1.1").length = 27
      ∧ (0x0d : UInt8) ∉ bytes "GET /api/v1/health HTTP/1.1" := by decide
  have hsecond : (0x0a :: bytes "x: " ++ List.replicate k 0x61).length = k + 4
      ∧ (0x0d : UInt8) ∉ 0x0a :: bytes "x: " ++ List.replicate k 0x61 := by
    rw [hname]
    simp only [List.cons_append, List.nil_append, List.length_cons, List.length_replicate]
    simp [List.mem_replicate]
  have hline : ¬headerTerminator <+: 0x0d :: ((0x0a :: bytes "x: " ++ List.replicate k 0x61)
      ++ headerTerminator) := by
    rw [hname]
    simp [headerTerminator]
  have hend : find headerTerminator headerTerminator = some 0 := by decide
  unfold longHeader
  rw [headerTerminator, find_append_of_notMem _ hfirst.2, ← headerTerminator,
    find_cons_of_not hline, headerTerminator, find_append_of_notMem _ hsecond.2,
    ← headerTerminator, hend, hfirst.1, hsecond.1]
  simp only [Option.map_some, Option.some.injEq]
  omega

end Sample

/-- Whether it is answered depends on the packets. -/
theorem longHeader_depends : ¬CutIndependent .closed (Sample.longHeader maximumHeaderBytes) :=
  not_cutIndependent (Sample.find_longHeader maximumHeaderBytes) (by decide) (by decide)

end VoxTree.LinuxHttpServer
