import ResourceHandles.Session.Outcome

/-!
# Scripts

A script is a client: it makes calls one after the other, each chosen by the
replies before it, and ends with an outcome.  What it does next is its turn.
A script ends as soon as one of its calls fails; handles that it has opened by
then stay open.  Only a row of requests goes on with the next request.
-/

namespace ResourceHandles

/-- Where a round trip of some data through a file stands: the file is created,
filled and closed, then opened again, read and closed, and then unlinked. -/
inductive RoundTrip where
  | create (data : Bytes)
  | fill (handle : Handle) (data : Bytes)
  | closeFilled (handle : Handle)
  | reopen
  | read (handle : Handle) (chunks : List Bytes)
  | closeRead (handle : Handle) (data : Bytes)
  | unlink (data : Bytes)
  deriving Repr, DecidableEq

/-- Where a request stands. -/
inductive Request where
  | connect (body : Bytes)
  | send (handle : Handle) (body : Bytes)
  | receive (handle : Handle)
  | close (handle : Handle) (response : Bytes)
  deriving Repr, DecidableEq

/-- Where a server stands. -/
inductive Service where
  | accept
  | receive (handle : Handle)
  | respond (handle : Handle)
  | close (handle : Handle)
  deriving Repr, DecidableEq

/-- A client.  Chunks, requests and responses are gathered with the newest one
first. -/
inductive Script where
  | once (call : Call)
  | lend (handle : Handle)
  | drain (handle : Handle) (chunks : List Bytes)
  | gather (handle : Handle) (wanted limit count : Nat) (chunks : List Bytes)
  | roundTrip (path : Path) (stage : RoundTrip)
  | request (address : String) (stage : Request)
  | requests (address : String) (stage : Request) (later : List Bytes) (responses : List Response)
  | serve (listener : Handle) (requests : List Bytes) (stage : Service)
  | delayed (due : Nat) (call : Call)
  | ended (outcome : Outcome)
  deriving Repr, DecidableEq

/-- What a script does next; one that rests does nothing before a point in
time. -/
inductive Turn where
  | call (call : Call)
  | rest (due : Nat)
  | finish (outcome : Outcome)
  deriving Repr, DecidableEq

def response : Bytes :=
  Bytes.ofString "HTTP/1.1 200 OK\r\nContent-Type: text/plain\r\nConnection: close\r\n\r\nHello"

/-- The data of chunks that were gathered with the newest one first. -/
def joined (chunks : List Bytes) : Bytes :=
  chunks.reverse.flatten

def RoundTrip.call (path : Path) : RoundTrip → Call
  | .create _ => .open path (some [.write, .create])
  | .fill handle data => .write handle data
  | .closeFilled handle => .close handle
  | .reopen => .open path (some [.read])
  | .read handle _ => .read handle
  | .closeRead handle _ => .close handle
  | .unlink _ => .unlink path

def Request.call (address : String) : Request → Call
  | .connect _ => .connect address
  | .send handle body => .write handle body
  | .receive handle => .read handle
  | .close handle _ => .close handle

/-- What a reply makes of a request: it is at another stage, or over. -/
inductive RequestProgress where
  | under (stage : Request)
  | over (response : Response)
  deriving Repr, DecidableEq

/-- A request after a reply; a reply of the wrong form ends it. -/
def Request.after (address : String) (reply : Reply) : Request → RequestProgress
  | .connect body =>
    match reply with
    | .handle handle =>
      if handle.isValid then .under (.send handle body) else .over (.failed (.notConnected address))
    | other => .over (.ofReply other)
  | .send handle _ =>
    match reply with
    | .failed fault => .over (.failed (.call fault))
    | _ => .under (.receive handle)
  | .receive handle =>
    match reply with
    | .bytes data => .under (.close handle data)
    | other => .over (.ofReply other)
  | .close _ data =>
    match reply with
    | .failed fault => .over (.failed (.call fault))
    | _ => .over (.bytes data)

def Service.call (listener : Handle) : Service → Call
  | .accept => .accept listener
  | .receive handle => .read handle
  | .respond handle => .write handle response
  | .close handle => .close handle

namespace Script

def turn : Script → Turn
  | once call => .call call
  | lend handle => .call (.read handle)
  | drain handle _ => .call (.read handle)
  | gather handle wanted limit count chunks =>
    if count < wanted then .call (.read handle)
    else .finish (.received (joined chunks) (chunks.any fun chunk => decide (limit < chunk.length)))
  | roundTrip path stage => .call (stage.call path)
  | request address stage => .call (stage.call address)
  | requests address stage _ _ => .call (stage.call address)
  | serve listener _ stage => .call (stage.call listener)
  | delayed due _ => .rest due
  | ended outcome => .finish outcome

/-- A round trip after a reply; a reply of the wrong form ends it. -/
def afterRoundTrip (path : Path) (reply : Reply) : RoundTrip → Script
  | .create data =>
    match reply with
    | .handle handle => roundTrip path (.fill handle data)
    | other => ended (.ofReply other)
  | .fill handle _ => roundTrip path (.closeFilled handle)
  | .closeFilled _ => roundTrip path .reopen
  | .reopen =>
    match reply with
    | .handle handle => roundTrip path (.read handle [])
    | other => ended (.ofReply other)
  | .read handle chunks =>
    match reply with
    | .bytes [] => roundTrip path (.closeRead handle (joined chunks))
    | .bytes chunk => roundTrip path (.read handle (chunk :: chunks))
    | other => ended (.ofReply other)
  | .closeRead _ data => roundTrip path (.unlink data)
  | .unlink data => ended (.bytes data)

def ofResponse : Response → Script
  | .bytes data => ended (.bytes data)
  | .failed fault => ended (.failed fault)

/-- A row of requests, after those that were responded to. -/
def requestsFrom (address : String) (responses : List Response) : List Bytes → Script
  | [] => ended (.responded responses.reverse)
  | body :: later => requests address (.connect body) later responses

def afterRequest (address : String) (reply : Reply) (stage : Request) : Script :=
  match stage.after address reply with
  | .under next => request address next
  | .over response => ofResponse response

def afterRequests (address : String) (reply : Reply) (stage : Request) (later : List Bytes)
    (responses : List Response) : Script :=
  match stage.after address reply with
  | .under next => requests address next later responses
  | .over response => requestsFrom address (response :: responses) later

/-- A server after a reply; it ends when nothing can be accepted any more. -/
def afterService (listener : Handle) (requests : List Bytes) (reply : Reply) : Service → Script
  | .accept =>
    match reply with
    | .handle handle =>
      if handle.isValid then serve listener requests (.receive handle)
      else ended (.served requests.reverse)
    | other => ended (.ofReply other)
  | .receive handle =>
    match reply with
    | .bytes data => serve listener (data :: requests) (.respond handle)
    | other => ended (.ofReply other)
  | .respond handle => serve listener requests (.close handle)
  | .close _ => serve listener requests .accept

def after : Script → Reply → Script
  | requests address stage later responses, reply =>
    afterRequests address reply stage later responses
  | _, .failed fault => ended (.failed (.call fault))
  | once _, reply => ended (.ofReply reply)
  | lend _, .bytes data => ended (.length data.length)
  | drain _ chunks, .bytes [] => ended (.chunks chunks.reverse)
  | drain handle chunks, .bytes chunk => drain handle (chunk :: chunks)
  | gather _ _ limit _ chunks, .bytes [] =>
    ended (.received (joined chunks) (chunks.any fun chunk => decide (limit < chunk.length)))
  | gather handle wanted limit count chunks, .bytes chunk =>
    gather handle wanted limit (count + chunk.length) (chunk :: chunks)
  | roundTrip path stage, reply => afterRoundTrip path reply stage
  | request address stage, reply => afterRequest address reply stage
  | serve listener bodies stage, reply => afterService listener bodies reply stage
  | ended outcome, _ => ended outcome
  | _, reply => ended (.ofReply reply)

end Script

end ResourceHandles
