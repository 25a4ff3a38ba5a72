import ResourceHandles.Address
import ResourceHandles.Configuration
import ResourceHandles.Machine.Call

/-!
# Outcomes

Whatever is done in a session ends with an outcome.  One that does not end, as
it waits for something that never comes, is timed out.
-/

namespace ResourceHandles

/-- Why something fails that is done in a session. -/
inductive Fault where
  | call (fault : CallFault)
  | notConnected (address : String)
  | notListening (address : String)
  | notBound (endpoint : Endpoint) (fault : SocketFault)
  | notReached (endpoint : Endpoint) (fault : SocketFault)
  | notWritten (stage : WriteStage) (fault : FileFault)
  | file (fault : FileFault)
  | configuration (fault : ConfigurationFault)
  | timedOut
  deriving Repr, DecidableEq

/-- The wording of a fault; one that is timed out has none. -/
def Fault.message : Fault → String
  | .call fault => fault.message
  | .notConnected address => "connect " ++ address ++ " failed"
  | .notListening address => "listen " ++ address ++ " failed"
  | .notBound endpoint fault => "bind " ++ endpoint.text ++ ": " ++ fault.message
  | .notReached endpoint fault => "connect " ++ endpoint.text ++ ": " ++ fault.message
  | .notWritten stage fault => stage.text ++ ": " ++ fault.message
  | .file fault => fault.message
  | .configuration fault => fault.message
  | .timedOut => ""

/-- The answer to a request: the first part of the response, or what went
wrong. -/
inductive Response where
  | bytes (data : Bytes)
  | failed (fault : Fault)
  deriving Repr, DecidableEq

/-- The response that a reply stands for; one without bytes is none. -/
def Response.ofReply : Reply → Response
  | .bytes data => .bytes data
  | .failed fault => .failed (.call fault)
  | _ => .failed .timedOut

/-- What is found out about a file, a listener and a connection that are used
without handles, before and after they are closed. -/
structure Findings where
  fileBuffer : Nat
  listenerBuffer : Nat
  received : Bytes
  peerIsListener : Bool
  writesAfterClose : Bool
  readsAfterClose : Nat
  acceptsNothing : Bool
  deriving Repr, DecidableEq

/-- How something ends that is done in a session. -/
inductive Outcome where
  | handle (handle : Handle)
  | bytes (data : Bytes)
  | done
  | length (count : Nat)
  | chunks (chunks : List Bytes)
  | received (data : Bytes) (oversized : Bool)
  | responded (responses : List Response)
  | served (requests : List Bytes)
  | exchanged (responses : List Response) (requests : List Bytes)
  | found (findings : Findings)
  | kind (kind : Kind)
  | settings (configuration : Configuration) (fault : Option ConfigurationFault)
  | loaded (configuration : Configuration)
  | text (text : String)
  | listing (names : List String)
  | reset
  | started
  | noTask
  | ended (answer : Option Bool)
  | failed (fault : Fault)
  deriving Repr, DecidableEq

def Outcome.ofReply : Reply → Outcome
  | .handle opened => .handle opened
  | .bytes data => .bytes data
  | .done => .done
  | .failed fault => .failed (.call fault)

end ResourceHandles
