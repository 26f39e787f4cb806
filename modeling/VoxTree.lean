import VoxTree.Proofs.Store
import VoxTree.Proofs.Lifecycle
import VoxTree.Proofs.Publication
import VoxTree.Proofs.Transmission
import VoxTree.Proofs.VoiceSession
import VoxTree.Proofs.JointSession
import VoxTree.Proofs.PttInput
import VoxTree.Proofs.Playback
import VoxTree.Proofs.RemoteAudio
import VoxTree.Proofs.ControlPlaneHttp
import VoxTree.Proofs.WinHttp
import VoxTree.Proofs.SpeakerLimit
import VoxTree.Proofs.StoreUpdates
import VoxTree.Proofs.Audit
import VoxTree.Proofs.VoiceGrants
import VoxTree.Lib.Encoding
import VoxTree.LiveKitToken
import VoxTree.Proofs.MicrophonePublication
import VoxTree.Proofs.LiveKitToken
import VoxTree.Proofs.Presence
import VoxTree.Proofs.Directory
import VoxTree.ControlPlane
import VoxTree.Proofs.ControlPlane
import VoxTree.Proofs.FailClosed
import VoxTree.Proofs.DirectorySync
import VoxTree.Proofs.StateMachine
import VoxTree.Proofs.RateLimiter
import VoxTree.Proofs.Routing
import VoxTree.Proofs.PlaybackAdmission
import VoxTree.Proofs.Administration
import VoxTree.Proofs.Revalidation
import VoxTree.Proofs.SessionCleanup
import VoxTree.Proofs.DirectoryAccepted
import VoxTree.Proofs.GroupIsolation
import VoxTree.Proofs.PttHistory
import VoxTree.Proofs.PttConflicts
import VoxTree.Proofs.LinuxInput
import VoxTree.Proofs.JsonParser
import VoxTree.Proofs.FlatJson
import VoxTree.Proofs.TokenPayload
import VoxTree.Proofs.PresenceWindow
import VoxTree.Proofs.LinuxHttpServer
import VoxTree.Proofs.LocalPublication
import VoxTree.Proofs.Persistence
import VoxTree.Proofs.Signature
import VoxTree.Proofs.ContextOrder
import VoxTree.Proofs.AuditMigration
import VoxTree.Proofs.DesktopPhases
import VoxTree.Proofs.VoiceOrder
import VoxTree.Proofs.VoiceDirectory
import VoxTree.Proofs.SampleQueue
import VoxTree.Proofs.RoleList
import VoxTree.Proofs.TokenSegments
import VoxTree.Proofs.WinRawInput
import VoxTree.Proofs.HttpExchange
import VoxTree.Proofs.HttpServer
import VoxTree.Proofs.RemoteCalls
import VoxTree.Proofs.ClientCore
import VoxTree.Proofs.PipeWireAudio
import VoxTree.Proofs.XAudio2Audio
import VoxTree.Proofs.RemotePlayouts
import VoxTree.Proofs.SchemaMigrations
import VoxTree.Deployment
import VoxTree.Proofs.Deployment
