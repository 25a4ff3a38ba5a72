import ResourceHandles.Session.Task

/-!
# Serving for a time

A server listens at an address and serves one connection after the other until
its listener is closed.  That happens at a deadline, unless somebody closes it
before; the server then ends with the requests that it has served.  In an
exchange a client makes a row of requests to a server in the meantime, and both
are waited for.
-/

namespace ResourceHandles

namespace Session

/-- Starts a server, and another task that closes its listener after a number of
milliseconds.  The number of the server's task is returned. -/
def startServer (session : Session) (space : Nat) (address : String) (deadline : Nat) :
    Session × Except Fault Nat :=
  match session.run space (.once (.listen address)) with
  | (listening, .handle listener) =>
    if !listener.isValid then (listening, .error (.notListening address))
    else
      let closing :=
        listening.launch space (.delayed (listening.clock + deadline) (.close listener))
      (closing.launch space (.serve listener [] .accept), .ok closing.tasks.length)
  | (failed, _) => (failed, .error .timedOut)

def beginExchange (session : Session) (space : Nat) (address : String) (deadline : Nat)
    (bodies : List Bytes) : Session × Except Fault Job :=
  match session.startServer space address deadline with
  | (failed, .error fault) => (failed, .error fault)
  | (serving, .ok server) =>
    (serving.launch space (.requestsFrom address [] bodies),
      .ok (.exchange server serving.tasks.length))

/-- Waits for an exchange to end.  The client of one that does not end is given
up. -/
def serve (session : Session) (space : Nat) (address : String) (deadline : Nat)
    (bodies : List Bytes) : Session × Outcome :=
  match session.beginExchange space address deadline bodies with
  | (failed, .error fault) => (failed, .failed fault)
  | (begun, .ok job) =>
    let (later, outcome) := begun.await job
    (later.giveUp (begun.tasks.length - 1), outcome)

end Session

end ResourceHandles
