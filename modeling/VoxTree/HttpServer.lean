import VoxTree.HttpExchange
import VoxTree.Lib.WorkerPool

/-!
# The accept loop and the workers of the Linux HTTP server

`runLinuxHttpServer` from the first `poll` on. The accept loop is the dispatcher of a pool of
workers, and the jobs are the accepted connections. A signal and a failed `poll` or `accept` end the
loop in the same way.
-/

namespace VoxTree.LinuxHttpServer

open WorkerPool

structure LinuxHttpServerOptions where
  workerCount : ℕ := 8
  maximumQueuedConnections : ℕ := 64

variable (options : LinuxHttpServerOptions)

def checkOptions : Except InvalidArgument Unit :=
  if options.workerCount = 0 ∨ options.maximumQueuedConnections = 0 then
    .error ⟨"HTTP worker and queue limits must be positive."⟩
  else .ok ()

/-- With each connection served goes the handler as it stood. -/
abbrev Server := Pool Connection Handler options.workerCount

abbrev ServerAction := Action Connection Handler options.workerCount

def serverStep : Server options → ServerAction options → Option (Server options) :=
  step options.maximumQueuedConnections

variable {options}

/-- What has been sent on the connections that are done with; none where the handler threw. -/
def Server.answers (s : Server options) : List (Connection × Option Bytes) :=
  s.refused.map (fun client => (client, some sendOverloadResponse))
    ++ s.served.map fun served => (served.1, processClient served.2 served.1)

end VoxTree.LinuxHttpServer
