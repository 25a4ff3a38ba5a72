import ResourceHandles.CommandLine.Scan
import ResourceHandles.Session.Step

/-!
# The walkthrough command

The command loads a configuration, sends some bytes on a round trip through a
file, and then serves one request that it makes itself.  It prints the bytes of
the file, the response and the request.  What was printed before a failure
stays printed.
-/

namespace ResourceHandles

/-- What a walkthrough was asked for; an option that was not given is empty. -/
structure WalkthroughOptions where
  configuration : Option Path := none
  mode : Option CallMode := none
  directory : Option Path := none
  listen : Option String := none
  connect : Option String := none
  deadline : Option Nat := none
  deriving Repr, DecidableEq

/-- The least number of milliseconds that is too large for a deadline. -/
def deadlineLimit : Nat := 18446744073709551616

def readDeadline? (text : String) : Option Nat :=
  let digits :=
    match text.toList with
    | '+' :: rest => rest
    | whole => whole
  if digits.isEmpty then none
  else (Endpoint.readDecimal? 0 digits).filter fun number => decide (number < deadlineLimit)

namespace WalkthroughOptions

def pathOf? (text : String) : Option Path :=
  if text.isEmpty then none else some ⟨text⟩

def setConfiguration (options : WalkthroughOptions) (text : String) : Option WalkthroughOptions :=
  match options.configuration, pathOf? text with
  | none, some path => some { options with configuration := some path }
  | _, _ => none

def setMode (options : WalkthroughOptions) (text : String) : Option WalkthroughOptions :=
  match options.mode, CallMode.ofWord? text with
  | none, some mode => some { options with mode := some mode }
  | _, _ => none

def setDirectory (options : WalkthroughOptions) (text : String) : Option WalkthroughOptions :=
  match options.directory, pathOf? text with
  | none, some path => some { options with directory := some path }
  | _, _ => none

def setListen (options : WalkthroughOptions) (text : String) : Option WalkthroughOptions :=
  if options.listen.isSome then none else some { options with listen := some text }

def setConnect (options : WalkthroughOptions) (text : String) : Option WalkthroughOptions :=
  if options.connect.isSome then none else some { options with connect := some text }

def setDeadline (options : WalkthroughOptions) (text : String) : Option WalkthroughOptions :=
  match options.deadline, readDeadline? text with
  | none, some deadline => some { options with deadline := some deadline }
  | _, _ => none

def grammar : Grammar WalkthroughOptions where
  option? name :=
    if name = "config" then some setConfiguration
    else if name = "mode" then some setMode
    else if name = "workdir" then some setDirectory
    else if name = "listen" then some setListen
    else if name = "connect" then some setConnect
    else if name = "deadline-ms" then some setDeadline
    else none
  operand _ _ := none
  hasVersion := false

def configurationPath (options : WalkthroughOptions) : Path :=
  options.configuration.getD ⟨"unio.toml"⟩

/-- The path of the file that is written and read. -/
def filePath (options : WalkthroughOptions) : Path :=
  (options.directory.getD ⟨"."⟩).join "file.txt"

def listenAddress (options : WalkthroughOptions) : String :=
  options.listen.getD ":8090"

def connectAddress (options : WalkthroughOptions) : String :=
  options.connect.getD "127.0.0.1:8090"

def deadlineTime (options : WalkthroughOptions) : Nat :=
  options.deadline.getD 3000

end WalkthroughOptions

def greeting : Bytes := Bytes.ofString "hello"

def sampleRequest : Bytes :=
  Bytes.ofString "POST / HTTP/1.1\r\nHost:127.0.0.1:8090\r\n\r\nHELLO WORLD\r\n"

def lineOf (data : Bytes) : String :=
  String.ofList (data.map fun byte => Char.ofNat byte.toNat) ++ "\n"

/-- Serves one request, after `printed` was printed. -/
def serveOnce (session : Session) (options : WalkthroughOptions) (printed : String) : Exit :=
  match session.startServer 0 options.listenAddress options.deadlineTime with
  | (_, .error fault) => .failed printed fault.message
  | (serving, .ok server) =>
    match serving.run 0 (.request options.connectAddress (.connect sampleRequest)) with
    | (asked, .bytes response) =>
      let answered := printed ++ lineOf response
      match (asked.await (.task server)).2 with
      | .served requests => { code := 0, output := answered ++ String.join (requests.map lineOf) }
      | .failed fault => .failed answered fault.message
      | _ => .failed answered ""
    | (_, .failed fault) => .failed printed fault.message
    | (_, _) => .failed printed ""

/-- Runs a walkthrough on a file tree and a network. -/
def walkthrough (tree : FileTree) (network : Network) (options : WalkthroughOptions) : Exit :=
  match Configuration.load tree options.configurationPath with
  | .error fault => .failed "" fault.message
  | .ok loaded =>
    let configuration := { loaded with mode := options.mode.getD loaded.mode }
    let session := (Session.ofConfigurations network [configuration]).setTree tree
    match session.run 0 (.roundTrip options.filePath (.create greeting)) with
    | (read, .bytes data) => serveOnce read options (lineOf data)
    | (_, .failed fault) => .failed "" fault.message
    | (_, _) => .failed "" ""

def walkthroughHelp : String :=
  "Usage: unio-demo [--config PATH] [--mode MODE] [--workdir DIR] [--listen ADDRESS]" ++
    " [--connect ADDRESS] [--deadline-ms MS]\n"

def walkthroughCommand (tree : FileTree) (network : Network) (arguments : List String) : Exit :=
  match WalkthroughOptions.grammar.read {} arguments with
  | .run options => walkthrough tree network options
  | .help => { code := 0, output := walkthroughHelp }
  | .version => { code := refusalCode, diagnostics := walkthroughHelp }
  | .refused => { code := refusalCode, diagnostics := walkthroughHelp }

end ResourceHandles
