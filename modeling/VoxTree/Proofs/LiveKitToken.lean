import VoxTree.LiveKitToken
import VoxTree.Proofs.VoiceGrants

/-!
# Tokens and publication control name the same rooms

A token is read back by a reader of its own (`readToken`), for arbitrary identifiers. What a token
tells is then compared with what `LiveKitPublicationController` asks the room service for.
-/

namespace VoxTree.LiveKit

open Encoding

/-! ## Reading a token -/

structure TokenPayload where
  issuer : Bytes
  subject : Bytes
  /-- In seconds since the epoch. -/
  expiration : Int
  metadata : Bytes
  room : Bytes
  canPublish : Bool
  canSubscribe : Bool

def readBool (input : Bytes) : Option (Bool × Bytes) :=
  ((readLiteral (bytes "true") input).map fun rest => (true, rest)).or
    ((readLiteral (bytes "false") input).map fun rest => (false, rest))

def readPayload (input : Bytes) : Option TokenPayload := do
  let input ← readLiteral (bytes "\x7b\"iss\":") input
  let (issuer, input) ← readQuoted input
  let input ← readLiteral (bytes ",\"sub\":") input
  let (subject, input) ← readQuoted input
  let input ← readLiteral (bytes ",\"exp\":") input
  let (expiration, input) := readSigned input
  let input ← readLiteral (bytes ",\"metadata\":") input
  let (metadata, input) ← readQuoted input
  let input ← readLiteral (bytes ",\"video\":\x7b\"roomJoin\":true,\"room\":") input
  let (room, input) ← readQuoted input
  let input ← readLiteral (bytes ",\"canPublish\":") input
  let (canPublish, input) ← readBool input
  let input ← readLiteral (bytes ",\"canSubscribe\":") input
  let (canSubscribe, input) ← readBool input
  if input = bytes "\x7d\x7d" then
    some { issuer, subject, expiration, metadata, room, canPublish, canSubscribe }
  else none

/-- The second of the three parts of a token. -/
def payloadOf (token : Bytes) : Bytes :=
  Base64Url.decode (((token.dropWhile (· ≠ 0x2e)).drop 1).takeWhile (· ≠ 0x2e))

/-- What a token told. -/
def readToken (token : Bytes) : Option TokenPayload := readPayload (payloadOf token)

@[simp] theorem readQuoted_jsonEscape (value rest : Bytes) :
    readQuoted (jsonEscape value ++ rest) = some (value, rest) := readQuoted_quote value rest

theorem readSigned_seconds (value : Int) {rest : Bytes}
    (h : rest.head?.all (!Encoding.isDigit ·) = true) :
    readSigned (signedDecimal value ++ rest) = (value, rest) :=
  readSigned_signedDecimal value h

theorem readBool_append (b : Bool) (rest : Bytes) :
    readBool (bytes (if b then "true" else "false") ++ rest) = some (b, rest) := by
  cases b
  · have hnot : readLiteral (bytes "true") (bytes "false" ++ rest) = none := rfl
    simp [readBool, hnot]
  · simp [readBool]

namespace LiveKitTokenAdapter

variable (credentials : LiveKitCredentials) (claims : VoiceGrantClaims)

theorem payloadOf_token (payload : Bytes) : payloadOf (token credentials payload) = payload := by
  have hheader := Base64Url.dot_notMem_encode (bytes "\x7b\"alg\":\"HS256\",\"typ\":\"JWT\"\x7d")
  have hpayload := Base64Url.dot_notMem_encode payload
  unfold payloadOf token base64Url
  rw [List.append_assoc, List.dropWhile_append_of_pos, List.cons_append, List.dropWhile_cons_of_neg,
    List.drop_one, List.tail_cons, List.takeWhile_append_of_pos, List.takeWhile_cons_of_neg,
    List.append_nil, Base64Url.decode_encode]
  · simp
  · intro b hb
    exact decide_eq_true fun h => hpayload (h ▸ hb)
  · simp
  · intro b hb
    exact decide_eq_true fun h => hheader (h ▸ hb)

theorem readPayload_payload (room : Bytes) (canSubscribe : Bool) :
    readPayload (payload credentials claims room canSubscribe) = some
      { issuer := credentials.apiKey
        subject := claims.playerId.value
        expiration := secondsSinceEpoch claims.expiresAt
        metadata := metadata claims
        room
        canPublish := false
        canSubscribe } := by
  have hfalse : bytes ",\"canPublish\":false"
      = bytes ",\"canPublish\":" ++ bytes (if false then "true" else "false") := rfl
  unfold readPayload payload
  simp only [hfalse, List.append_assoc, readLiteral_append, readQuoted_jsonEscape,
    Option.bind_eq_bind, Option.bind_some]
  rw [readSigned_seconds _ rfl]
  simp only [readLiteral_append, readQuoted_jsonEscape, readBool_append, Option.bind_some, if_true]

/-- What a grant of the claims for a scope told. -/
def payloadFor (scope : VoiceScope) : TokenPayload where
  issuer := credentials.apiKey
  subject := claims.playerId.value
  expiration := secondsSinceEpoch claims.expiresAt
  metadata := metadata claims
  room := roomFor claims scope
  canPublish := false
  canSubscribe := claims.receiveScopes.contains scope

/-- The grants are one for each scope of the claims. -/
theorem mem_issue {grant : IssuedVoiceRoomGrant} : grant ∈ issue credentials claims →
    (grant.scope ∈ claims.transmitScopes ∨ grant.scope ∈ claims.receiveScopes)
      ∧ grant.roomName = roomFor claims grant.scope
      ∧ readToken grant.accessToken = some (payloadFor credentials claims grant.scope) := by
  intro h
  obtain ⟨scope, -, hgrant⟩ := List.mem_filterMap.1 h
  simp only at hgrant
  split_ifs at hgrant with hnone
  obtain rfl := Option.some.inj hgrant
  refine ⟨?_, rfl, ?_⟩
  · simp only [Bool.and_eq_true, Bool.not_eq_true', not_and, Bool.not_eq_false] at hnone
    by_cases htransmit : scope ∈ claims.transmitScopes
    · exact .inl htransmit
    · refine .inr ?_
      simpa using hnone (by simpa using htransmit)
  · rw [readToken, payloadOf_token]
    exact readPayload_payload credentials claims _ _

end LiveKitTokenAdapter

/-! ## Rooms -/

/-- The node of a scope in the claims. -/
def scopeNode (claims : VoiceGrantClaims) : VoiceScope → Bytes
  | .team => claims.teamId.value
  | .specialization => claims.specializationId.value
  | .group => claims.groupId.value

/-- A room name tells its scope and its node. -/
theorem roomFor_injective {claims claims' : VoiceGrantClaims} {scope scope' : VoiceScope}
    (h : roomFor claims scope = roomFor claims' scope') :
    scope = scope' ∧ scopeNode claims scope = scopeNode claims' scope' := by
  have hhead := congrArg List.head? h
  cases scope <;> cases scope'
  all_goals first
    | exact ⟨rfl, List.append_cancel_left h⟩
    | exact absurd (Option.some.inj hhead) (by decide)

/-- The controller's room for an entry is the room of the claims that name the same node. -/
theorem publicationRoom_eq {claims : VoiceGrantClaims} {entry : ActiveTransmission}
    (h : entry.scopeNodeId = scopeNode claims entry.authorization.scope) :
    publicationRoom entry = roomFor claims entry.authorization.scope := by
  unfold publicationRoom
  rw [h]
  cases entry.authorization.scope <;> rfl

/-! ## Expiry -/

/-- The whole seconds of a time lie behind it only before the epoch. -/
theorem secondsSinceEpoch_le_iff (time : Int) :
    secondsSinceEpoch time * 1000000000 ≤ time ↔ 0 ≤ time ∨ time % 1000000000 = 0 := by
  have hsign : Int.sign 1000000000 = 1 := rfl
  have htdiv : secondsSinceEpoch time
      = time / 1000000000 + if 0 ≤ time ∨ (1000000000 : Int) ∣ time then 0 else 1 := by
    rw [secondsSinceEpoch, Int.tdiv_eq_ediv, hsign]
  rw [htdiv, ← Int.dvd_iff_emod_eq_zero]
  split <;> omega

/-! ## Agreement -/

/-- What holds of the grants issued for claims derived from a store: a room and a subscription
right are the ones publication control asks for as long as the player's membership context is the
same; rooms are told apart; and a token never publishes, is for a granted scope only, and does not
outlive the session or the policy's lifetime, if the earlier of these ends from the epoch on or on
a whole second. -/
structure TokensAgree (credentials : LiveKitCredentials) (s : Store) (policy : VoiceGrantPolicy)
    (now : TimePoint) (session : AuthenticatedSession) (claims : VoiceGrantClaims) : Prop where
  publication : ∀ grant ∈ LiveKitTokenAdapter.issue credentials claims,
    ∀ (s' : Store) transmission sessionId deviceId startedAt entry,
      s'.memberships[claims.playerId]? = s.memberships[claims.playerId]? →
      s'.checkActivation transmission sessionId deviceId startedAt = .ok entry →
      transmission.senderPlayerId = claims.playerId → transmission.scope = grant.scope →
      entry.authorization.membershipVersion = claims.membershipVersion
        ∧ publicationRoom entry = grant.roomName
        ∧ (readToken grant.accessToken).map TokenPayload.canSubscribe
          = some entry.scopeCanSubscribe
  rooms : ∀ claims', ∀ grant ∈ LiveKitTokenAdapter.issue credentials claims,
    ∀ grant' ∈ LiveKitTokenAdapter.issue credentials claims',
      grant.scope ≠ grant'.scope
        ∨ scopeNode claims grant.scope ≠ scopeNode claims' grant'.scope →
      grant.roomName ≠ grant'.roomName
  tokens : ∀ grant ∈ LiveKitTokenAdapter.issue credentials claims,
    (grant.scope ∈ claims.transmitScopes ∨ grant.scope ∈ claims.receiveScopes)
      ∧ ∃ told, readToken grant.accessToken = some told
        ∧ told.subject = claims.playerId.value ∧ told.room = grant.roomName
        ∧ told.canPublish = false
        ∧ (told.expiration * 1000000000 ≤ session.expiresAt
            ∧ told.expiration * 1000000000 ≤ now + policy.lifetime.toNanoseconds
          ↔ 0 ≤ claims.expiresAt ∨ claims.expiresAt % 1000000000 = 0)

open VoiceGrantAuthorizationService

theorem scopeNode_eq {s : Store} {policy : VoiceGrantPolicy} {sessionId : SessionId}
    {deviceId : DeviceId} {now : TimePoint} {claims : VoiceGrantClaims}
    {session : AuthenticatedSession} {context : AuthoritativeMembershipContext}
    {membership : VoiceMembership}
    (h : Derived s policy sessionId deviceId now claims session context membership)
    (scope : VoiceScope) : scopeNodeId membership scope = scopeNode claims scope := by
  cases scope with
  | team => rw [scopeNodeId, scopeNode, h.teamId]
  | specialization => rw [scopeNodeId, scopeNode, h.specializationId]
  | group => rw [scopeNodeId, scopeNode, h.groupId]

/-- Every grant derived from a store is such a grant. -/
theorem tokens_agree (credentials : LiveKitCredentials) {s : Store} {policy : VoiceGrantPolicy}
    {sessionId : SessionId} {deviceId : DeviceId} {now : TimePoint}
    {session : AuthenticatedSession} {claims : VoiceGrantClaims}
    (hderive : derive s policy sessionId deviceId now = .ok claims)
    (hsession : s.sessions[sessionId]? = some session) :
    TokensAgree credentials s policy now session claims := by
  obtain ⟨session', context, membership, h⟩ := derive_ok hderive
  refine ⟨fun grant hgrant s' transmission sessionId' deviceId' startedAt entry hsame hcheck hsender
    hscope => ?_, fun claims' grant hgrant grant' hgrant' hdiffer heq => ?_, fun grant hgrant => ?_⟩
  · obtain ⟨-, hroom, hread⟩ := LiveKitTokenAdapter.mem_issue credentials claims hgrant
    obtain ⟨rfl, -, -, -, hactivated⟩ := Store.checkActivation_ok hcheck
    obtain ⟨context', membership', hstored, hversion, hfound, hdefined, hnode, hright⟩ :=
      hactivated.context
    rw [hsender, hsame, h.player, h.stored] at hstored
    obtain rfl : context = context' := Option.some.inj hstored
    rw [hsender, h.player, h.found] at hfound
    obtain rfl : membership = membership' := Option.some.inj hfound
    refine ⟨hversion.symm.trans h.version.symm, ?_, ?_⟩
    · rw [hroom, ← hscope]
      refine publicationRoom_eq (hnode.symm.trans ?_)
      exact scopeNode_eq h entry.authorization.scope
    · rw [hread, ← hscope, ← hright, Option.map_some, Option.some.injEq, Bool.eq_iff_iff]
      simp only [LiveKitTokenAdapter.payloadFor, List.contains_iff_mem]
      rw [h.receive]
      exact and_iff_right ((context.snapshot.hierarchy.findScope_isSome _).1 hdefined)
  · rw [(LiveKitTokenAdapter.mem_issue credentials claims hgrant).2.1,
      (LiveKitTokenAdapter.mem_issue credentials claims' hgrant').2.1] at heq
    obtain ⟨hscope, hnode⟩ := roomFor_injective heq
    exact hdiffer.elim (fun hne => hne hscope) fun hne => hne hnode
  · obtain ⟨hgranted, hroom, hread⟩ := LiveKitTokenAdapter.mem_issue credentials claims hgrant
    refine ⟨hgranted, _, hread, rfl, hroom.symm, rfl, ?_⟩
    obtain rfl : session = session' :=
      Option.some.inj (hsession.symm.trans (requireSession_ok (h.session_ok () () ())).1)
    rw [← Int.le_min, ← h.expiresAt]
    exact secondsSinceEpoch_le_iff claims.expiresAt

open Sample

def credentials : LiveKitCredentials := ⟨bytes "key", bytes "secret", by decide, by decide⟩

theorem tokens_agree_active :
    TokensAgree credentials (storeWith (context 1 Nat.one_pos)) grantPolicy 0 authenticated
      grantClaims := by
  have hderive : derive (storeWith (context 1 Nat.one_pos)) grantPolicy session device 0
      = .ok grantClaims := by rfl
  exact tokens_agree credentials hderive (by rfl)

/-- `alice` with a session that ends half a second before the epoch. -/
def earlySession : AuthenticatedSession := { authenticated with expiresAt := -500000000 }

def earlyStore : Store :=
  (({} : Store).upsertSession earlySession).updateMembershipLocked alice (context 1 Nat.one_pos) 0
    correlation .membershipChanged |>.2

def earlyClaims : VoiceGrantClaims := { grantClaims with expiresAt := -500000000 }

/-- Her token expires at the epoch, half a second after the session. -/
theorem token_outlives_early :
    derive earlyStore grantPolicy session device (-2000000000) = .ok earlyClaims
      ∧ earlyStore.sessions[session]? = some earlySession
      ∧ ∃ grant ∈ LiveKitTokenAdapter.issue credentials earlyClaims,
        ∃ told, readToken grant.accessToken = some told
          ∧ earlySession.expiresAt < told.expiration * 1000000000 := by
  have hne : LiveKitTokenAdapter.issue credentials earlyClaims ≠ [] := List.cons_ne_nil _ _
  obtain ⟨grant, hgrant⟩ := List.exists_mem_of_ne_nil _ hne
  obtain ⟨-, -, hread⟩ := LiveKitTokenAdapter.mem_issue credentials earlyClaims hgrant
  have hlate : earlySession.expiresAt < secondsSinceEpoch earlyClaims.expiresAt * 1000000000 := by
    decide
  exact ⟨by rfl, by rfl, grant, hgrant, _, hread, hlate⟩

end VoxTree.LiveKit
