import VoxTree.Proofs.Routing
import VoxTree.VoiceGrants

/-!
# What is answered on the same context

Stores whose players have the same contexts up to the order of their lists (`Store.Same`) derive the
same grants, with the scopes in the order of the hierarchy's (`derive_same`), and activate the same
transmissions (`activate_same`).
-/

namespace VoxTree

/-- The same claims up to the order of the scopes. -/
structure VoiceGrantClaims.Same (c c' : VoiceGrantClaims) : Prop where
  transmit : c.transmitScopes.Perm c'.transmitScopes
  receive : c.receiveScopes.Perm c'.receiveScopes
  rest : c' = { c with transmitScopes := c'.transmitScopes, receiveScopes := c'.receiveScopes }

/-- The same claims, or the same error. -/
inductive SameGrant : Except VoiceGrantError VoiceGrantClaims →
    Except VoiceGrantError VoiceGrantClaims → Prop
  | ok {c c' : VoiceGrantClaims} : c.Same c' → SameGrant (.ok c) (.ok c')
  | error (e : VoiceGrantError) : SameGrant (.error e) (.error e)

/-- The same sessions and transmissions, and of every player the same context. -/
structure Store.Same (s s' : Store) : Prop where
  sessions : s.sessions = s'.sessions
  activeTransmissions : s.activeTransmissions = s'.activeTransmissions
  memberships : ∀ p : PlayerId, Option.Rel AuthoritativeMembershipContext.Same s.memberships[p]?
    s'.memberships[p]?

/-- The store with this context of a player. -/
def Store.holding (s : Store) (p : PlayerId) (context : AuthoritativeMembershipContext) :
    Store :=
  { s with memberships := s.memberships.insert p context }

theorem AuthoritativeMembershipContext.Same.refl (c : AuthoritativeMembershipContext) :
    c.Same c := by
  refine ⟨⟨rfl, .refl _, ?_⟩, ?_⟩
  · exact Keyed.SameUpTo.of_forall₂ (List.forall₂_same.2 fun m _ => .refl m)
  · exact Keyed.SameUpTo.of_forall₂ (List.forall₂_same.2 fun r _ => ⟨rfl, .refl _, .refl _⟩)

theorem Store.Same.holding (s : Store) (p : PlayerId) {c c' : AuthoritativeMembershipContext}
    (h : c.Same c') : (s.holding p c).Same (s.holding p c') := by
  refine ⟨rfl, rfl, fun q => ?_⟩
  unfold Store.holding
  rw [Std.ExtTreeMap.getElem?_insert, Std.ExtTreeMap.getElem?_insert]
  split_ifs
  · exact .some h
  · rcases s.memberships[q]? with _ | c
    · exact .none
    · exact .some (.refl c)

section Rights

variable {c c' : AuthoritativeMembershipContext} {m m' : VoiceMembership}

theorem receiveRight_same (h : c.Same c') (hm : m.Same m') (scope : VoiceScope) :
    receiveRight c m scope = receiveRight c' m' scope := by
  have hgrants : c.rolePolicy.canReceive m.roleIds scope
      = c'.rolePolicy.canReceive m'.roleIds scope :=
    h.policy.grants hm.roles scope fun _ _ hs => hs.receive
  unfold receiveRight
  rw [hgrants, hm.rest]

theorem mayTransmit_same (h : c.Same c') (hm : m.Same m') (scope : VoiceScope) :
    VoiceGrantAuthorizationService.mayTransmit c m scope
      = VoiceGrantAuthorizationService.mayTransmit c' m' scope := by
  have hgrants : c.rolePolicy.canTransmit m.roleIds scope
      = c'.rolePolicy.canTransmit m'.roleIds scope :=
    h.policy.grants hm.roles scope fun _ _ hs => hs.transmit
  unfold VoiceGrantAuthorizationService.mayTransmit
  rw [hgrants, hm.rest]

theorem sameScopeNode_same (hm : m.Same m') {n n' : VoiceMembership} (hn : n.Same n')
    (scope : VoiceScope) : sameScopeNode m n scope = sameScopeNode m' n' scope := by
  rw [hm.rest, hn.rest]
  cases scope <;> rfl

end Rights

namespace Store.Same

variable {s s' : Store} (h : s.Same s')

include h

theorem memberships_cases (p : PlayerId) :
    (s.memberships[p]? = none ∧ s'.memberships[p]? = none)
      ∨ ∃ c c', s.memberships[p]? = some c ∧ s'.memberships[p]? = some c' ∧ c.Same c' := by
  rcases hc : s.memberships[p]? with _ | c <;> rcases hc' : s'.memberships[p]? with _ | c' <;>
    have hrel := h.memberships p <;> rw [hc, hc'] at hrel <;> cases hrel
  · exact .inl ⟨rfl, rfl⟩
  · rename_i hsame
    exact .inr ⟨c, c', rfl, rfl, hsame⟩

theorem derive_same (policy : VoiceGrantPolicy) (sessionId : SessionId) (deviceId : DeviceId)
    (now : TimePoint) :
    SameGrant (VoiceGrantAuthorizationService.derive s policy sessionId deviceId now)
      (VoiceGrantAuthorizationService.derive s' policy sessionId deviceId now) := by
  have hsession : requireSession VoiceGrantError.sessionNotFound .sessionDeviceMismatch
      .sessionExpired s sessionId deviceId now
        = requireSession .sessionNotFound .sessionDeviceMismatch .sessionExpired s' sessionId
          deviceId now := by
    unfold requireSession
    rw [h.sessions]
  unfold VoiceGrantAuthorizationService.derive
  rw [hsession]
  rcases requireSession VoiceGrantError.sessionNotFound .sessionDeviceMismatch .sessionExpired s'
    sessionId deviceId now with e | session
  · exact .error e
  rcases h.memberships_cases session.playerId with ⟨hc, hc'⟩ | ⟨c, c', hc, hc', hsame⟩
  · simp only [hc, hc']
    exact .error _
  rcases hsame.snapshot.find_cases session.playerId with ⟨hm, hm'⟩ | ⟨m, m', hm, hm', hsame'⟩
  · simp only [hc, hc', hm, hm']
    exact .error _
  simp only [hc, hc', hm, hm', ← hsame'.connected]
  split_ifs
  · exact .error _
  have hscopes := hsame.snapshot.hierarchy.scopes.map ScopeDefinition.scope
  rw [← funext (mayTransmit_same hsame hsame'), ← funext (receiveRight_same hsame hsame')]
  refine .ok ⟨hscopes.filter _, hscopes.filter _, ?_⟩
  rw [hsame'.rest, hsame.snapshot.version]

theorem matchingSpeakers_same {m m' : VoiceMembership} (hm : m.Same m') (scope : VoiceScope) :
    s.matchingSpeakers m scope = s'.matchingSpeakers m' scope := by
  unfold Store.matchingSpeakers
  rw [h.activeTransmissions]
  refine List.countP_congr fun entry _ => ?_
  rcases h.memberships_cases entry.2.authorization.senderPlayerId with
    ⟨hc, hc'⟩ | ⟨c, c', hc, hc', hsame⟩
  · rw [hc, hc']
  rcases hsame.snapshot.find_cases entry.2.authorization.senderPlayerId with
    ⟨hn, hn'⟩ | ⟨n, n', hn, hn', hsame'⟩
  · simp only [hc, hc', hn, hn']
  · simp only [hc, hc', hn, hn', sameScopeNode_same hm hsame']

theorem checkActivation_same (transmission : AuthorizedTransmission) (sessionId : SessionId)
    (deviceId : DeviceId) (startedAt : TimePoint) :
    s.checkActivation transmission sessionId deviceId startedAt
      = s'.checkActivation transmission sessionId deviceId startedAt := by
  unfold Store.checkActivation
  rw [h.sessions]
  rcases s'.sessions[sessionId]? with _ | session
  · rfl
  rcases h.memberships_cases transmission.senderPlayerId with ⟨hc, hc'⟩ | ⟨c, c', hc, hc', hsame⟩
  · simp only [hc, hc']
  rcases hsame.snapshot.find_cases transmission.senderPlayerId with
    ⟨hm, hm'⟩ | ⟨m, m', hm, hm', hsame'⟩
  · simp only [hc, hc', hm, hm', hsame.snapshot.version]
  have hspeakers := h.matchingSpeakers_same hsame' transmission.scope
  have hright := receiveRight_same hsame hsame' transmission.scope
  simp only [hc, hc', hm, hm', hsame.snapshot.version, hsame.snapshot.hierarchy.findScope,
    h.activeTransmissions]
  rcases c'.snapshot.hierarchy.findScope transmission.scope with _ | definition
  · rfl
  · simp only [hspeakers, hright, hsame'.node]

theorem activate_same {ω : Type*} (observer : LifecycleObserver ω)
    (transmission : AuthorizedTransmission) (sessionId : SessionId) (deviceId : DeviceId)
    (startedAt : TimePoint) (w : ω) :
    (s.activate observer transmission sessionId deviceId startedAt w).1
        = (s'.activate observer transmission sessionId deviceId startedAt w).1
      ∧ (s.activate observer transmission sessionId deviceId startedAt w).2.2
        = (s'.activate observer transmission sessionId deviceId startedAt w).2.2
      ∧ (s.activate observer transmission sessionId deviceId startedAt w).2.1.Same
        (s'.activate observer transmission sessionId deviceId startedAt w).2.1 := by
  unfold Store.activate
  rw [h.checkActivation_same]
  rcases s'.checkActivation transmission sessionId deviceId startedAt with e | entry
  · exact ⟨rfl, rfl, h⟩
  simp only
  rcases observer.onStarted entry w with ⟨accepted, w'⟩
  have hentries : (s.emplace entry).activeTransmissions
      = (s'.emplace entry).activeTransmissions := by
    unfold Store.emplace
    rw [h.activeTransmissions]
  cases accepted
  · refine ⟨rfl, rfl, h.sessions, ?_, h.memberships⟩
    show Std.ExtTreeMap.erase _ _ = Std.ExtTreeMap.erase _ _
    rw [hentries]
  · exact ⟨rfl, rfl, h.sessions, hentries, h.memberships⟩

end Store.Same

end VoxTree
