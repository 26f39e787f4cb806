import VoxTree.Proofs.ControlPlaneHttp
import VoxTree.Proofs.Store
import VoxTree.WinHttp

/-!
# When the Windows transport is transparent

The transport hands on status, body and API version of what the adapter answers. An operation reads
nothing else, except the entity tag of a directory and the `Retry-After` of a presence: its result
is another one exactly where the client gets to that header and would accept it.
-/

namespace VoxTree

open Results Client Network

/-! ## Headers -/

theorem asciiHeaderNameEquals_iff : ∀ {left right : Bytes},
    asciiHeaderNameEquals left right = true ↔ left.map lowerAscii = right.map lowerAscii
  | [], [] => by simp [asciiHeaderNameEquals]
  | [], _ :: _ => by simp [asciiHeaderNameEquals]
  | _ :: _, [] => by simp [asciiHeaderNameEquals]
  | a :: left, b :: right => by
    have ih : asciiHeaderNameEquals left right = true
        ↔ left.map lowerAscii = right.map lowerAscii := asciiHeaderNameEquals_iff
    simp only [asciiHeaderNameEquals, Bool.and_eq_true, decide_eq_true_eq, List.length_cons,
      Nat.add_right_cancel_iff, List.zip_cons_cons, List.all_cons, List.map_cons,
      List.cons.injEq] at ih ⊢
    rw [← ih]
    tauto

namespace Network

variable {response : HttpResponse}

theorem Answered.apiVersion (h : Answered response) :
    response.headers[bytes "x-hvc-api-version"]? = some (bytes "v1") := by
  have hjson : ∀ statusCode body,
      (jsonResponse statusCode body).headers[bytes "x-hvc-api-version"]? = some (bytes "v1") := by
    intro statusCode body
    simp [jsonResponse, controlPlaneApiVersion]
  have hemplace : ∀ statusCode body name value, bytes name ≠ bytes "x-hvc-api-version" →
      ((jsonResponse statusCode body).emplace name value).headers[bytes "x-hvc-api-version"]?
        = some (bytes "v1") := by
    intro statusCode body name value hname
    simp only [HttpResponse.emplace, Std.ExtTreeMap.getElem?_insertIfNew,
      Std.LawfulEqOrd.compare_eq_iff_eq, hname, false_and, if_false]
    exact hjson statusCode body
  cases h with
  | json statusCode body => exact hjson statusCode body
  | notModified etag => simp [notModifiedResponse, controlPlaneApiVersion]
  | directory body etag => exact hemplace 200 body "etag" etag (by decide)
  | presence body => exact hemplace 200 body "retry-after" (bytes "1") (by decide)

theorem Answered.names (h : Answered response) : ∀ name ∈ response.headers,
    name ∈ [bytes "cache-control", bytes "content-type", bytes "x-hvc-api-version", bytes "etag",
      bytes "retry-after"] := by
  intro name hname
  cases h <;>
    simp only [jsonResponse, notModifiedResponse, HttpResponse.emplace,
      Std.ExtTreeMap.mem_insert, Std.ExtTreeMap.mem_insertIfNew,
      Std.ExtTreeMap.not_mem_empty, Std.LawfulEqOrd.compare_eq_iff_eq, or_false] at hname <;>
    simp only [List.mem_cons, List.not_mem_nil, or_false] <;>
    tauto

/-- The names are written in lower case. -/
theorem Answered.lowerAscii_names (h : Answered response) :
    ∀ name ∈ response.headers, name.map lowerAscii = name := by
  have hall : ∀ name ∈ [bytes "cache-control", bytes "content-type", bytes "x-hvc-api-version",
      bytes "etag", bytes "retry-after"], name.map lowerAscii = name := by
    decide
  exact fun name hname => hall name (h.names name hname)

/-- A header is found under its name in any case. -/
theorem Answered.find_header (h : Answered response) {name : String} {key value : Bytes}
    (hname : (bytes name).map lowerAscii = key) (hvalue : response.headers[key]? = some value) :
    response.headers.toList.find? (fun header => asciiHeaderNameEquals header.1 (bytes name))
      = some (key, value) := by
  have hkey : key.map lowerAscii = key :=
    h.lowerAscii_names key (Std.ExtTreeMap.mem_iff_isSome_getElem?.mpr (by simp [hvalue]))
  have hmem : (key, value) ∈ response.headers.toList :=
    Std.ExtTreeMap.mem_toList_iff_getElem?_eq_some.mpr hvalue
  rcases hfind : response.headers.toList.find?
    (fun header => asciiHeaderNameEquals header.1 (bytes name)) with _ | ⟨found, other⟩
  · have hnone := List.find?_eq_none.mp hfind _ hmem
    rw [asciiHeaderNameEquals_iff, hname] at hnone
    exact absurd hkey hnone
  · have hequals := List.find?_some hfind
    rw [asciiHeaderNameEquals_iff, hname] at hequals
    dsimp only at hequals
    have hother : response.headers[found]? = some other :=
      Std.ExtTreeMap.mem_toList_iff_getElem?_eq_some.mp (List.mem_of_find?_eq_some hfind)
    have hfound := h.lowerAscii_names found
      (Std.ExtTreeMap.mem_iff_isSome_getElem?.mpr (by simp [hother]))
    obtain rfl : key = found := hequals.symm.trans hfound
    rw [hvalue] at hother
    rw [Option.some.inj hother]
    exact hfind

/-- The API version is found under its name in any case. -/
theorem Answered.find_apiVersion (h : Answered response) {name : String}
    (hname : (bytes name).map lowerAscii = bytes "x-hvc-api-version") :
    response.headers.toList.find? (fun header => asciiHeaderNameEquals header.1 (bytes name))
      = some (bytes "x-hvc-api-version", bytes "v1") :=
  h.find_header hname h.apiVersion

end Network

/-! ## What the transport hands on -/

namespace WinHttpTransport

theorem readBody_ok : ∀ (chunks : List Bytes) (body : Bytes),
    body.length + chunks.flatten.length ≤ maximumResponseSize →
      readBody body chunks = .ok (body ++ chunks.flatten)
  | [], body, _ => by simp [readBody]
  | chunk :: chunks, body, h => by
    rw [List.flatten_cons, List.length_append] at h
    have hfits : ¬ maximumResponseSize < body.length + chunk.length := by omega
    have hrest : (body ++ chunk).length + chunks.flatten.length ≤ maximumResponseSize := by
      rw [List.length_append]
      omega
    rw [readBody, if_neg hfits, readBody_ok chunks (body ++ chunk) hrest, List.flatten_cons,
      List.append_assoc]

theorem queryHeader_apiVersion {response : HttpResponse} (h : Answered response) :
    queryHeader response.headers "X-HVC-API-Version" = bytes "v1" := by
  unfold queryHeader
  rw [h.find_apiVersion (by decide)]
  decide

/-- The headers of every response that arrives. -/
def receivedHeaders : Headers := (∅ : Headers).insert (bytes "x-hvc-api-version") (bytes "v1")

theorem send_eq {response : HttpResponse} (h : Answered response)
    (hbody : response.body.length ≤ maximumResponseSize) (delivery : Delivery response) :
    send response delivery
      = { response.complete with headers := receivedHeaders } := by
  have hsize : ([] : Bytes).length + delivery.chunks.flatten.length ≤ maximumResponseSize := by
    rw [delivery.whole, List.length_nil, Nat.zero_add]
    exact hbody
  have hread := readBody_ok delivery.chunks [] hsize
  have hversion : bytes "v1" ≠ [] := by decide
  rw [List.nil_append, delivery.whole] at hread
  simp [send, sendChecked, hread, queryHeader_apiVersion h, hversion, HttpResponse.complete,
    receivedHeaders]

end WinHttpTransport

open WinHttpTransport

/-- What is left of a response whose headers but the API version are dropped. -/
structure Dropped (received complete : ClientHttpResponse) : Prop where
  statusCode : received.statusCode = complete.statusCode
  body : received.body = complete.body
  transportError : received.transportError = complete.transportError
  apiVersion : responseHeader received "x-hvc-api-version"
    = responseHeader complete "x-hvc-api-version"
  etag : responseHeader received "etag" = none
  retryAfter : responseHeader received "retry-after" = none

theorem dropped_send {response : HttpResponse} (h : Answered response)
    (hbody : response.body.length ≤ maximumResponseSize) (delivery : Delivery response) :
    Dropped (send response delivery) response.complete := by
  rw [send_eq h hbody delivery]
  refine ⟨rfl, rfl, rfl, ?_, ?_, ?_⟩
  · have hreceived : (receivedHeaders.toList.find? fun header =>
        asciiHeaderNameEquals header.1 (bytes "x-hvc-api-version"))
          = some (bytes "x-hvc-api-version", bytes "v1") := by decide
    simp only [responseHeader, HttpResponse.complete]
    rw [hreceived, h.find_apiVersion (by decide)]
  · show (receivedHeaders.toList.find? fun header =>
      asciiHeaderNameEquals header.1 (bytes "etag")).map Prod.snd = none
    decide
  · show (receivedHeaders.toList.find? fun header =>
      asciiHeaderNameEquals header.1 (bytes "retry-after")).map Prod.snd = none
    decide

/-! ## What the client reads -/

namespace Client

theorem invalidResponse_injective : Function.Injective invalidResponse := by
  intro s t h
  exact bytes_injective (congrArg ControlPlaneError.message h)

/-- The error of a wrong entity tag. -/
def entityTagError : ControlPlaneError :=
  invalidResponse "directory response has an inconsistent ETag"

theorem readParent_error {node : JsonValue} {e : ControlPlaneError}
    (h : readParent node = .error e) : e ≠ entityTagError := by
  unfold readParent at h
  split at h
  · split at h <;> cases h
    exact invalidResponse_injective.ne (by simp)
  · cases h
  · cases h
    exact invalidResponse_injective.ne (by simp)

theorem readNode_error (seen : List DirectoryNodeView × NodeKinds) (node : JsonValue)
    (e : ControlPlaneError) (h : readNode seen node = .error e) : e ≠ entityTagError := by
  unfold readNode at h
  split at h
  · split at h
    · cases h
      exact invalidResponse_injective.ne (by simp)
    · rcases hparent : readParent node with e' | parent <;> rw [hparent] at h
      · cases h
        exact readParent_error hparent
      · dsimp only at h
        split at h <;> cases h
        exact invalidResponse_injective.ne (by simp)
  · cases h
    exact invalidResponse_injective.ne (by simp)

theorem checkRoot_error {groupId : Bytes} {nodes : List DirectoryNodeView} {kinds : NodeKinds}
    (e : ControlPlaneError) (h : checkRoot groupId nodes kinds = .error e) :
    e ≠ entityTagError := by
  unfold checkRoot at h
  split at h <;> cases h
  exact invalidResponse_injective.ne (by simp)

theorem checkParent_error {kinds : NodeKinds} (node : DirectoryNodeView) (e : ControlPlaneError)
    (h : checkParent kinds node = .error e) : e ≠ entityTagError := by
  unfold checkParent at h
  split at h
  · cases h
  · dsimp only at h
    split_ifs at h <;> cases h
    · exact invalidResponse_injective.ne (by simp)
    · exact invalidResponse_injective.ne (by simp)

theorem readPublicRole_error (seen : List PublicRoleView) (role : JsonValue)
    (e : ControlPlaneError) (h : readPublicRole seen role = .error e) : e ≠ entityTagError := by
  unfold readPublicRole at h
  split at h
  · split at h <;> cases h
    exact invalidResponse_injective.ne (by simp)
  · cases h
    exact invalidResponse_injective.ne (by simp)

theorem readParticipantRole_error {roles : List PublicRoleView} (seen : List Bytes)
    (role : JsonValue) (e : ControlPlaneError) (h : readParticipantRole roles seen role = .error e) :
    e ≠ entityTagError := by
  unfold readParticipantRole at h
  split at h
  · split at h <;> cases h
    exact invalidResponse_injective.ne (by simp)
  · cases h
    exact invalidResponse_injective.ne (by simp)

theorem readParticipant_error {kinds : NodeKinds} {roles : List PublicRoleView}
    (seen : List DirectoryParticipantView) (participant : JsonValue) (e : ControlPlaneError)
    (h : readParticipant kinds roles seen participant = .error e) : e ≠ entityTagError := by
  unfold readParticipant at h
  split at h
  · rename_i participantRoles _ _ _ _
    split at h
    · cases h
      exact invalidResponse_injective.ne (by simp)
    · rcases hroles : participantRoles.foldlM (readParticipantRole roles) [] with e' | roleIds <;>
        rw [hroles] at h
      · cases h
        exact error_foldlM readParticipantRole_error participantRoles [] e hroles
      · cases h
  · cases h
    exact invalidResponse_injective.ne (by simp)

/-- No error of a directory's content is the one of a wrong entity tag. -/
theorem readDirectoryView_error (fields : DirectoryFields) (e : ControlPlaneError)
    (h : readDirectoryView fields = .error e) : e ≠ entityTagError := by
  refine error_bind (fun e he => error_foldlM readNode_error fields.nodes _ e he) ?_ h
  rintro ⟨nodes, kinds⟩ - e h
  refine error_bind checkRoot_error (fun _ _ e h => ?_) h
  refine error_bind (fun e he => error_forM checkParent_error nodes e he) (fun _ _ e h => ?_) h
  refine error_bind (fun e he => error_foldlM readPublicRole_error fields.roles _ e he)
    (fun publicRoles _ e h => ?_) h
  refine error_bind (fun e he => error_foldlM readParticipant_error fields.participants _ e he)
    (fun participants _ e h => ?_) h
  cases h

/-- The error of a missing `Retry-After`. -/
def retryAfterError : ControlPlaneError :=
  invalidResponse "presence response has no valid Retry-After"

theorem readPresenceEntry_error (seen : List DirectoryPresenceEntry) (entry : JsonValue)
    (e : ControlPlaneError) (h : readPresenceEntry seen entry = .error e) :
    e ≠ retryAfterError := by
  unfold readPresenceEntry at h
  split at h
  · split at h <;> cases h
    exact invalidResponse_injective.ne (by simp)
  · cases h
    exact invalidResponse_injective.ne (by simp)

end Client

namespace Dropped

variable {received complete : ClientHttpResponse}

theorem responseRoot (h : Dropped received complete) :
    Client.responseRoot received = Client.responseRoot complete := by
  unfold Client.responseRoot
  rw [h.statusCode, h.body, h.transportError, h.apiVersion]

theorem readDirectory (h : Dropped received complete) (knownVersion : Option ℕ) :
    Client.readDirectory knownVersion received = Client.readDirectory knownVersion complete
      ↔ ControlPlaneClient.entityTagAccepted complete knownVersion = false := by
  unfold Client.readDirectory ControlPlaneClient.entityTagAccepted
  rw [h.statusCode, h.responseRoot, h.etag]
  split
  · have hreceived : notModified knownVersion received = false := by
      unfold notModified
      rw [h.etag]
      cases knownVersion <;> simp
    rw [hreceived]
    cases notModified knownVersion complete <;> simp
  · rcases hfields : (Client.responseRoot complete).bind directoryFields with e | fields
    · simp
    · simp only [ne_eq, reduceCtorEq, not_false_eq_true, if_true]
      split
      · rename_i hetag
        simp [hetag]
      · rename_i hetag
        simp only [not_not] at hetag
        simp only [hetag, decide_true, Bool.true_eq_false, iff_false]
        intro hequal
        rcases hview : readDirectoryView fields with e | view
        · rw [hview] at hequal
          cases hequal
          exact readDirectoryView_error fields _ hview rfl
        · rw [hview] at hequal
          cases hequal

theorem readPresence (h : Dropped received complete) (afterVersion : Option ℕ) :
    Client.readPresence afterVersion received = Client.readPresence afterVersion complete
      ↔ ControlPlaneClient.retryAfterAccepted complete afterVersion = false := by
  have hreceived : Client.retryAfter received = none := by
    unfold Client.retryAfter
    rw [h.retryAfter]
    rfl
  unfold Client.readPresence ControlPlaneClient.retryAfterAccepted
  rw [h.responseRoot, hreceived]
  rcases hfields : (Client.responseRoot complete).bind (presenceFields afterVersion) with e | fields
  · simp
  · rcases hretry : Client.retryAfter complete with _ | seconds
    · simp
    · simp only [Option.isSome_some, Bool.true_eq_false, iff_false]
      intro hequal
      rcases hentries : fields.entries.foldlM readPresenceEntry [] with e | entries
      · rw [hentries] at hequal
        cases hequal
        exact error_foldlM readPresenceEntry_error fields.entries [] _ hentries rfl
      · rw [hentries] at hequal
        cases hequal

end Dropped

namespace ControlPlaneClient

variable (c : ControlPlaneClient) (correlationId : CorrelationId)

theorem sendSessionRequest_answered {session : ControlPlaneSession} (h : c.session = some session)
    (response : ClientHttpResponse) (method target body : Bytes) (additional : Headers) :
    c.sendSessionRequest (fun _ => .ok response) correlationId method target body additional
      = response := by
  unfold sendSessionRequest
  rw [h]

/-! ## Operations -/

/-- What becomes of an operation when headers are dropped from the response. -/
theorem call_dropped {received complete : ClientHttpResponse} (h : Dropped received complete)
    (op : Operation) :
    c.call (fun _ => .ok received) correlationId op = c.call (fun _ => .ok complete) correlationId op
      ↔ c.takesHeader complete op = false := by
  rcases hsession : c.session with _ | session
  · cases op with
    | createSession externalCredential =>
      simp [call, createSession, takesHeader, h.responseRoot]
    | membership => simp [call, membership, takesHeader, hsession]
    | directory knownVersion => simp [call, directory, takesHeader, hsession]
    | directoryPresence afterVersion => simp [call, directoryPresence, takesHeader, hsession]
    | voiceGrants => simp [call, voiceGrants, takesHeader, hsession]
    | startTransmission clientId scope membershipVersion =>
      simp [call, startTransmission, takesHeader, hsession]
    | endTransmission transmissionId => simp [call, endTransmission, takesHeader, hsession]
  · have hsend := c.sendSessionRequest_answered correlationId hsession
    cases op with
    | createSession externalCredential =>
      simp [call, createSession, takesHeader, h.responseRoot]
    | membership => simp [call, membership, takesHeader, hsession, hsend, h.responseRoot]
    | directory knownVersion =>
      by_cases hzero : knownVersion = some 0
      · simp [call, directory, takesHeader, hsession, hzero]
      · simp [call, directory, takesHeader, hsession, hzero, hsend, h.readDirectory]
    | directoryPresence afterVersion =>
      by_cases hzero : afterVersion = some 0
      · simp [call, directoryPresence, takesHeader, hsession, hzero]
      · simp [call, directoryPresence, takesHeader, hsession, hzero, hsend, h.readPresence]
    | voiceGrants => simp [call, voiceGrants, takesHeader, hsession, hsend, h.responseRoot]
    | startTransmission clientId scope membershipVersion =>
      simp [call, startTransmission, takesHeader, hsession, hsend, h.responseRoot]
    | endTransmission transmissionId =>
      simp [call, endTransmission, takesHeader, hsession, hsend, h.responseRoot]

end ControlPlaneClient

open ControlPlaneClient

/-- The transport is transparent for an answer of the adapter and an operation of the client
exactly if the operation takes no header but the API version from it. -/
theorem transparent_iff {σ : Type} (adapter : ControlPlaneHttpAdapter σ) (request : HttpRequest)
    (now : TimePoint) (s : σ)
    (hbody : (adapter.handle request now s).1.body.length ≤ maximumResponseSize)
    (delivery : Delivery (adapter.handle request now s).1) (c : ControlPlaneClient)
    (correlationId : CorrelationId) (op : Operation) :
    c.call (fun _ => .ok (send _ delivery)) correlationId op
        = c.call (fun _ => .ok (adapter.handle request now s).1.complete) correlationId op
      ↔ c.takesHeader (adapter.handle request now s).1.complete op = false :=
  c.call_dropped correlationId (dropped_send (adapter.handle_answered request now s) hbody delivery)
    op

section Runs

/-- A body that becomes available at once. -/
def inOneChunk (response : HttpResponse) : Delivery response where
  chunks := if response.body = [] then [] else [response.body]
  available chunk h := by
    split at h
    · cases h
    · rename_i hbody
      rwa [List.mem_singleton.mp h]
  whole := by
    split
    · rename_i hbody
      rw [hbody, List.flatten_nil]
    · rw [List.flatten_singleton]

/-- The group alone, at version 7. -/
def groupDirectory : DirectorySnapshot where
  version := 7
  groupId := Sample.group
  nodes := [⟨Sample.group.value, .group, none, bytes "Group", 0⟩]
  publicRoles := []
  participants := []

def nobodyOnline : DirectoryPresenceSnapshot := ⟨1, .snapshot, 0, []⟩

/-- An adapter with the session of `alice` and the directory of her group. -/
def groupAdapter : ControlPlaneHttpAdapter Unit where
  authenticate _ _ := pure (.error .invalidCredentials)
  sessions :=
    { find := fun id => pure (if id = Sample.session then some Sample.authenticated else none)
      upsert := fun _ => pure () }
  memberships := ⟨fun _ => pure none⟩
  transmissions :=
    { start := fun _ _ => pure (.error .membershipUnavailable)
      «end» := fun _ _ => pure (.error .transmissionNotFound)
      interruptForModeration := fun _ _ => pure (.error .notAuthorized) }
  directory := some ⟨fun _ => pure (.ok groupDirectory), fun _ _ _ => pure (.ok nobodyOnline)⟩

def aliceClient : ControlPlaneClient where
  deviceId := Sample.device
  session := some ⟨Sample.session, Sample.alice, Sample.device, 1000⟩

/-- A request of `alice`'s client, with the headers it adds. -/
def aliceRequest (target : String) (additional : Headers) : HttpRequest where
  method := bytes "GET"
  target := bytes target
  headers := aliceClient.sessionHeaders Sample.correlation
    ⟨Sample.session, Sample.alice, Sample.device, 1000⟩ additional
  body := []

/-- A refused request: the directory is answered with an error, which takes no header. -/
theorem transparent_iff_refused :
    aliceClient.call (fun _ => .ok (send _
        (inOneChunk (groupAdapter.handle ⟨bytes "GET", bytes "/api/v1/directory", ∅, []⟩ 0 ()).1)))
        Sample.correlation (.directory none)
      = aliceClient.call (fun _ => .ok
          (groupAdapter.handle ⟨bytes "GET", bytes "/api/v1/directory", ∅, []⟩ 0 ()).1.complete)
          Sample.correlation (.directory none) :=
  (transparent_iff groupAdapter _ 0 () (by decide +kernel) (inOneChunk _) aliceClient
    Sample.correlation (.directory none)).mpr (by decide +kernel)

/-- The answer to a request of `alice`'s client. -/
def aliceAnswer (target : String) (additional : Headers) : HttpResponse :=
  (groupAdapter.handle (aliceRequest target additional) 0 ()).1

/-- The client's result is another one for an answer, small enough, that arrives through the
transport than for the answer itself. -/
def Differs (answer : HttpResponse) (op : Operation) : Prop :=
  answer.body.length ≤ maximumResponseSize
    ∧ aliceClient.call (fun _ => .ok (send answer (inOneChunk answer))) Sample.correlation op
      ≠ aliceClient.call (fun _ => .ok answer.complete) Sample.correlation op

theorem aliceAnswer_differs {target : String} {additional : Headers} {op : Operation}
    (hbody : (aliceAnswer target additional).body.length ≤ maximumResponseSize)
    (htakes : aliceClient.takesHeader (aliceAnswer target additional).complete op = true) :
    Differs (aliceAnswer target additional) op := by
  refine ⟨hbody, fun hequal => ?_⟩
  have hanswered : Answered (aliceAnswer target additional) :=
    groupAdapter.handle_answered (aliceRequest target additional) 0 ()
  have hdropped := dropped_send hanswered hbody (inOneChunk _)
  rw [(aliceClient.call_dropped Sample.correlation hdropped op).mp hequal] at htakes
  cases htakes

/-- A directory that the client knows, one that it does not know, and the presence. -/
theorem not_transparent :
    Differs (aliceAnswer "/api/v1/directory"
        ((∅ : Headers).insert (bytes "if-none-match") (bytes "\"directory-7\"")))
        (.directory (some 7))
      ∧ Differs (aliceAnswer "/api/v1/directory" ∅) (.directory none)
      ∧ Differs (aliceAnswer "/api/v1/directory/presence" ∅) (.directoryPresence none) := by
  refine ⟨?_, ?_, ?_⟩
  · exact aliceAnswer_differs (by decide) (by decide)
  · exact aliceAnswer_differs (by decide +kernel) (by decide +kernel)
  · exact aliceAnswer_differs (by decide) (by decide)

end Runs

end VoxTree
