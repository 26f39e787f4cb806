import VoxTree.Lib.Ownership
import VoxTree.RemoteAudio

/-!
# The playouts of remote audio

`LiveKitVoiceTransport` keeps with a publication the playout that makes it heard. The callbacks of
the rooms and the commands of the user come on threads of their own: one step is what a thread does
under one of the two mutexes, or the end of a playout that it has taken out of the publications. A
callback of an old room generation and a command with an invalid argument return at once and are no
steps; what the observer is told is left out.
-/

namespace VoxTree.RemotePlayouts

open Ownership

/-- `RemoteAudioPublication` with its playout. -/
structure Publication extends RemoteAudioPublication where
  playout : Option ℕ := none

/-- Where a thread is in a callback. -/
inductive Phase
  | idle
  -- `remoteAudioStarted` behind its first section, `remoteAudioStopped` behind its first
  | started (key : RemoteStreamKey) (publicationId : Bytes)
  | stopped (key : RemoteStreamKey) (publicationId : Bytes)
  -- `participantDisconnected` behind `clearParticipantAudio`
  | left (key : RemoteStreamKey)
  | disposing (playout : Option ℕ)
  deriving DecidableEq

/-- The playout that the thread has taken out. -/
def Phase.hand : Phase → Option ℕ
  | .disposing playout => playout
  | _ => none

/-- The playouts that live, with the gain each is set to. -/
structure State where
  publications : VoiceScope → Std.ExtTreeMap Bytes Publication := fun _ => ∅
  audioTracks : VoiceScope → Std.ExtTreeMap Bytes Bytes := fun _ => ∅
  living : ℕ → Option ℚ := fun _ => none
  created : ℕ := 0
  threads : ℕ → Phase := fun _ => .idle

namespace State

variable (s : State) (key : RemoteStreamKey)

def publication : Option Publication := (s.publications key.scope)[key.participantId]?

def setPublication (publication : Publication) : State :=
  { s with
    publications := Function.update s.publications key.scope
      ((s.publications key.scope).insert key.participantId publication) }

def erasePublication : State :=
  { s with
    publications := Function.update s.publications key.scope
      ((s.publications key.scope).erase key.participantId) }

def enter (thread : ℕ) (phase : Phase) : State :=
  { s with threads := Function.update s.threads thread phase }

/-- `setGain` of a playout, if there is one. -/
def setGain (playout : Option ℕ) (gain : ℚ) : State :=
  match playout with
  | none => s
  | some id => { s with living := Function.update s.living id ((s.living id).map fun _ => gain) }

/-- The playout is one of a publication. -/
def keeps (id : ℕ) : Bool :=
  [VoiceScope.team, .specialization, .group].any fun scope =>
    (s.publications scope).toList.any fun entry => entry.2.playout = some id

end State

inductive Action
  | configureRemoteAudio (key : RemoteStreamKey) (admitted : Bool) (gain : ℚ)
  | remoteAudioAvailable (key : RemoteStreamKey) (publicationId : Bytes)
  | remoteAudioUnavailable (thread : ℕ) (key : RemoteStreamKey) (publicationId : Bytes)
  -- whether the backend is there and creates a playout
  | remoteAudioStarted (thread : ℕ) (key : RemoteStreamKey) (publicationId : Bytes)
      (playable : Bool)
  | insertTrack (thread : ℕ)
  | remoteAudioStopped (thread : ℕ) (key : RemoteStreamKey) (publicationId : Bytes)
  | takeStopped (thread : ℕ)
  | participantDisconnected (thread : ℕ) (key : RemoteStreamKey)
  | takeLeft (thread : ℕ)
  | dispose (thread : ℕ)
  | resetRemoteAudio
  | resetRemotePublications

variable (s : State)

/-- Takes the playout out, and the publication with it. -/
def take (thread : ℕ) (key : RemoteStreamKey) : State :=
  match s.publication key with
  | none => s.enter thread (.disposing none)
  | some publication => (s.erasePublication key).enter thread (.disposing publication.playout)

/-- A thread is in one callback at a time. -/
def step : Action → Option State
  | .configureRemoteAudio key admitted gain =>
    match s.publication key with
    | none => some s
    | some publication =>
      let gain := if admitted then gain else 0
      some ((s.setPublication key { publication with admitted, gain }).setGain publication.playout
        gain)
  | .remoteAudioAvailable key publicationId =>
    match s.publication key with
    | none => some (s.setPublication key { publicationId })
    | some existing =>
      if existing.publicationId = publicationId then some s
      else
        some { s.setPublication key { publicationId } with
          living := destroy existing.playout s.living }
  | .remoteAudioUnavailable thread key publicationId =>
    if s.threads thread = .idle then
      if (s.publication key).any fun publication => publication.publicationId = publicationId then
        some (take s thread key)
      else some s
    else none
  | .remoteAudioStarted thread key publicationId playable =>
    if s.threads thread = .idle then
      match s.publication key with
      | none => some s
      | some publication =>
        if publication.publicationId = publicationId ∧ publication.admitted ∧ playable then
          some { (s.setPublication key { publication with playout := some s.created }).enter thread
              (.started key publicationId) with
            living := Function.update (destroy publication.playout s.living) s.created
              (some publication.gain)
            created := s.created + 1 }
        else some s
    else none
  | .insertTrack thread =>
    match s.threads thread with
    | .started key publicationId =>
      some { s.enter thread .idle with
        audioTracks := Function.update s.audioTracks key.scope
          ((s.audioTracks key.scope).insert publicationId key.participantId) }
    | _ => none
  | .remoteAudioStopped thread key publicationId =>
    if s.threads thread = .idle then
      if (s.audioTracks key.scope).contains publicationId then
        some { s.enter thread (.stopped key publicationId) with
          audioTracks := Function.update s.audioTracks key.scope
            ((s.audioTracks key.scope).erase publicationId) }
      else some s
    else none
  | .takeStopped thread =>
    match s.threads thread with
    | .stopped key publicationId =>
      match s.publication key with
      | none => some (s.enter thread (.disposing none))
      | some publication =>
        if publication.publicationId = publicationId then
          some ((s.setPublication key { publication with playout := none }).enter thread
            (.disposing publication.playout))
        else some (s.enter thread (.disposing none))
    | _ => none
  | .participantDisconnected thread key =>
    if s.threads thread = .idle then
      some { s.enter thread (.left key) with
        audioTracks := Function.update s.audioTracks key.scope
          ((s.audioTracks key.scope).filter fun _ participantId =>
            participantId ≠ key.participantId) }
    else none
  | .takeLeft thread =>
    match s.threads thread with
    | .left key => some (take s thread key)
    | _ => none
  | .dispose thread =>
    match s.threads thread with
    | .disposing playout => some { s.enter thread .idle with living := destroy playout s.living }
    | _ => none
  | .resetRemoteAudio => some { s with audioTracks := fun _ => ∅ }
  | .resetRemotePublications =>
    some { s with
      publications := fun _ => ∅
      living := fun id => if s.keeps id then none else s.living id }

end VoxTree.RemotePlayouts
