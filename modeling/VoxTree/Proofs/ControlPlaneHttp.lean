import VoxTree.ControlPlaneHttp
import VoxTree.Lib.Results

/-!
# What the adapter answers

Every answer of the adapter, also one to an exception, is of one of four kinds: the entity tag is
only on the answers of the directory, and `Retry-After` only on those of the presence.
-/

namespace VoxTree

open Results

/-! ## The answer with a directory -/

def directoryAnswered (a : DirectorySnapshot) : HttpResponse :=
  (Network.jsonResponse 200 (Network.directoryBody a)).emplace "etag" (Network.entityTag a.version)

theorem directoryAnswered_statusCode (a : DirectorySnapshot) :
    (directoryAnswered a).statusCode = 200 := rfl

theorem directoryAnswered_etag (a : DirectorySnapshot) :
    (directoryAnswered a).headers[bytes "etag"]? = some (Network.entityTag a.version) := by
  have hnew : bytes "etag" ∉ (Network.jsonResponse 200 []).headers := by decide +kernel
  show ((Network.jsonResponse 200 []).headers.insertIfNew (bytes "etag")
    (Network.entityTag a.version))[_]? = _
  rw [Std.ExtTreeMap.getElem?_insertIfNew, if_pos ⟨Std.ReflCmp.compare_self, hnew⟩]

/-! ## The kinds of answers -/

namespace Network

/-- The kinds of answers, by their headers. -/
inductive Answered : HttpResponse → Prop
  | json (statusCode : Int) (body : Bytes) : Answered (jsonResponse statusCode body)
  | notModified (etag : Bytes) : Answered (notModifiedResponse etag)
  | directory (body etag : Bytes) : Answered ((jsonResponse 200 body).emplace "etag" etag)
  | presence (body : Bytes) : Answered ((jsonResponse 200 body).emplace "retry-after" (bytes "1"))

theorem Answered.error (statusCode : Int) (code : Bytes) (message : String) :
    Answered (errorResponse statusCode code message) := .json _ _

variable {σ : Type}

theorem authenticateRequestSession_yields (request : HttpRequest) (now : TimePoint)
    (sessions : SessionRepository σ) : Yields (authenticateRequestSession request now sessions)
      fun r => ∀ response, r = .error response → Answered response := by
  have hrefused : ∀ statusCode code message, ∀ response,
      (.error (errorResponse statusCode code message) : Except HttpResponse RequestSession)
        = .error response → Answered response := by
    rintro statusCode code message response h
    cases h
    exact .error _ _ _
  unfold authenticateRequestSession
  split
  · exact .pure (hrefused _ _ _)
  · dsimp only
    split
    · exact .pure (hrefused _ _ _)
    · refine .bind fun sessionId => .bind fun deviceId => .bind fun correlationId =>
        .bind fun r => ?_
      split
      · exact .pure (hrefused _ _ _)
      · split
        · exact .pure (hrefused _ _ _)
        · split
          · exact .pure (hrefused _ _ _)
          · exact .pure nofun

theorem directoryResponse_yields (request : HttpRequest) (actor : PlayerId)
    (directory : DirectoryService σ) :
    Yields (directoryResponse request actor directory) Answered := by
  refine .bind fun r => ?_
  split
  · exact .pure (.error _ _ _)
  · exact .pure (.error _ _ _)
  · dsimp only
    split
    · exact .pure (.notModified _)
    · exact .pure (.directory _ _)

theorem presenceResponse_yields (actor : PlayerId) (afterVersion : Option ℕ)
    (directory : DirectoryService σ) (now : TimePoint) :
    Yields (presenceResponse actor afterVersion directory now) Answered := by
  refine .bind fun r => ?_
  split
  · exact .pure (.error _ _ _)
  · exact .pure (.error _ _ _)
  · exact .pure (.presence _)

theorem membershipResponse_yields (session : AuthenticatedSession)
    (memberships : MembershipProvider σ) :
    Yields (membershipResponse session memberships) Answered := by
  refine .bind fun r => ?_
  split
  · exact .pure (.error _ _ _)
  · split
    · exact .pure (.error _ _ _)
    · exact .pure (.json _ _)

theorem voiceGrantResponse_yields (authenticated : RequestSession)
    (derive : SessionId → DeviceId → TimePoint →
      Service σ (Except VoiceGrantError VoiceGrantClaims))
    (issue : VoiceGrantClaims → Service σ (List IssuedVoiceRoomGrant)) (voiceServerUrl : Bytes)
    (now : TimePoint) :
    Yields (voiceGrantResponse authenticated derive issue voiceServerUrl now) Answered := by
  refine .bind fun r => ?_
  split
  · rename_i error
    refine .pure ?_
    cases error <;> exact .error _ _ _
  · refine .bind fun grants => ?_
    split
    · exact .pure (.error _ _ _)
    · exact .pure (.json _ _)

theorem replaceMembershipResponse_yields (authenticated : RequestSession) (subject : PlayerId)
    (body : JsonObject) (administration : AdministrativeMembershipService σ) (now : TimePoint) :
    Yields (replaceMembershipResponse authenticated subject body administration now) Answered := by
  unfold replaceMembershipResponse
  split
  · exact .pure (.error _ _ _)
  · split
    · refine .bind fun r => ?_
      split
      · exact .pure (.error _ _ _)
      · split
        · exact .pure (.error _ _ _)
        · refine .bind fun groupId => .bind fun specializationId => .bind fun teamId => ?_
          dsimp only
          split
          · exact .pure (.error _ _ _)
          · refine .tryCatch (.bind fun r => ?_) fun e => ?_
            · split
              · exact .pure (.error _ _ _)
              · exact .pure (.json _ _)
            · cases e with
              | invalidArgument => exact .pure (.error _ _ _)
              | other => exact .throw _
    · exact .pure (.error _ _ _)

theorem startTransmissionResponse_yields (authenticated : RequestSession) (body : JsonObject)
    (service : TransmissionService σ) (now : TimePoint) :
    Yields (startTransmissionResponse authenticated body service now) Answered := by
  unfold startTransmissionResponse
  split
  · exact .pure (.error _ _ _)
  · split
    · refine .bind fun clientTransmissionId => .bind fun r => ?_
      split
      · exact .pure (.error _ _ _)
      · exact .pure (.json _ _)
    · exact .pure (.error _ _ _)

theorem endTransmissionResponse_yields (authenticated : RequestSession) (transmissionId : Bytes)
    (service : TransmissionService σ) (now : TimePoint) :
    Yields (endTransmissionResponse authenticated transmissionId service now) Answered := by
  refine .bind fun id => .bind fun r => ?_
  split
  · exact .pure (.error _ _ _)
  · exact .pure (.json _ _)

theorem moderateTransmissionResponse_yields (authenticated : RequestSession)
    (transmissionId : Bytes) (service : TransmissionService σ) (now : TimePoint) :
    Yields (moderateTransmissionResponse authenticated transmissionId service now) Answered := by
  refine .bind fun id => .bind fun r => ?_
  split
  · exact .pure (.error _ _ _)
  · exact .pure (.json _ _)

end Network

namespace ControlPlaneHttpAdapter

open Network

variable {σ : Type} (adapter : ControlPlaneHttpAdapter σ) (request : HttpRequest) (now : TimePoint)

theorem createSession_yields : Yields (adapter.createSession request now) Answered := by
  unfold createSession
  split
  · exact .pure (.error _ _ _)
  · dsimp only
    split
    · exact .pure (.error _ _ _)
    · split
      · exact .pure (.error _ _ _)
      · refine .bind fun deviceId => .bind fun correlationId => .bind fun r => ?_
        split
        · rename_i error
          refine .pure ?_
          cases error <;> exact .error _ _ _
        · split
          · exact .pure (.error _ _ _)
          · exact .bind fun _ => .pure (.json _ _)

theorem administerMembership_yields (session : RequestSession) (subjectValue : Bytes) :
    Yields (adapter.administerMembership request now session subjectValue) Answered := by
  unfold administerMembership
  split
  · exact .pure (.error _ _ _)
  · split
    · refine .bind fun subject => ?_
      dsimp only
      split
      · refine .bind fun allowed => ?_
        split
        · exact .pure (.error _ _ _)
        · exact membershipResponse_yields _ _
      · split
        · refine .bind fun allowed => ?_
          split
          · exact .pure (.error _ _ _)
          · refine .bind fun r => ?_
            split
            · exact .pure (.error _ _ _)
            · exact .bind fun _ => .pure (.json _ _)
        · split
          · refine .bind fun allowed => ?_
            split
            · exact .pure (.error _ _ _)
            · split
              · exact .pure (.error _ _ _)
              · exact replaceMembershipResponse_yields _ _ _ _ _
          · exact .pure (.error _ _ _)
    · exact .pure (.error _ _ _)

theorem readDirectory_yields (session : RequestSession) :
    Yields (adapter.readDirectory request session) Answered := by
  unfold readDirectory
  split
  · exact .pure (.error _ _ _)
  · split
    · exact .pure (.error _ _ _)
    · exact directoryResponse_yields _ _ _

theorem parsePresenceVersion_error {target : Bytes} {response : HttpResponse}
    (h : parsePresenceVersion target = .error response) : Answered response := by
  unfold parsePresenceVersion at h
  split at h
  · cases h
  · split at h
    · cases h
      exact .error _ _ _
    · dsimp only at h
      split at h
      · cases h
        exact .error _ _ _
      · split at h
        · cases h
          exact .error _ _ _
        · cases h

theorem readPresence_yields (session : RequestSession) :
    Yields (adapter.readPresence request now session) Answered := by
  unfold readPresence
  split
  · exact .pure (.error _ _ _)
  · split
    · exact .pure (.error _ _ _)
    · split
      · rename_i h
        exact .pure (parsePresenceVersion_error h)
      · split
        · exact .pure (.error _ _ _)
        · exact presenceResponse_yields _ _ _ _

theorem issueGrants_yields (session : RequestSession) :
    Yields (adapter.issueGrants request now session) Answered := by
  unfold issueGrants
  split
  · exact .pure (.error _ _ _)
  · split
    · exact voiceGrantResponse_yields _ _ _ _ _
    · exact .pure (.error _ _ _)

theorem transmissionRoute_yields (session : RequestSession) (transmissionId : Bytes) :
    Yields (adapter.transmissionRoute request now session transmissionId) Answered := by
  unfold transmissionRoute
  split
  · dsimp only
    split
    · exact .pure (.error _ _ _)
    · exact moderateTransmissionResponse_yields _ _ _ _
  · split
    · exact endTransmissionResponse_yields _ _ _ _
    · exact .pure (.error _ _ _)

theorem sessionRoutes_yields (session : RequestSession) :
    Yields (adapter.sessionRoutes request now session) Answered := by
  unfold sessionRoutes
  split
  · exact adapter.readDirectory_yields request session
  · split
    · exact adapter.readPresence_yields request now session
    · split
      · exact adapter.administerMembership_yields request now session _
      · split
        · split
          · exact .pure (.error _ _ _)
          · exact membershipResponse_yields _ _
        · split
          · exact adapter.issueGrants_yields request now session
          · split
            · split
              · exact .pure (.error _ _ _)
              · exact startTransmissionResponse_yields _ _ _ _
            · split
              · exact adapter.transmissionRoute_yields request now session _
              · exact .pure (.error _ _ _)

theorem answer_yields : Yields (adapter.answer request now) Answered := by
  unfold answer
  split
  · split
    · exact .pure (.error _ _ _)
    · exact .pure (.json _ _)
  · split
    · exact adapter.createSession_yields request now
    · refine .bind_of (authenticateRequestSession_yields request now adapter.sessions) fun r hr => ?_
      split
      · exact .pure (hr _ rfl)
      · exact adapter.sessionRoutes_yields request now _

theorem handle_answered (s : σ) : Answered (adapter.handle request now s).1 := by
  unfold handle
  split
  · rename_i h
    exact adapter.answer_yields request now s _ _ h
  · exact .error _ _ _
  · exact .error _ _ _

end ControlPlaneHttpAdapter

end VoxTree
