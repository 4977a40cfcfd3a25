import Xhttp.Client

/- The handler of a server (`src/server.rs`): a request has to pass the checks of its
   path, query, host, token and padding, and is then given to the transport its
   metadata and method ask for. `Outcome` says which one, with what it is given. What
   the transports do with the sessions is in `Xhttp.Server.Sessions`. -/
namespace Xhttp.Server
open Lib Protocol

inductive Outcome where
  | status (code : Nat)
  | streamOne
  | download (id : Str)
  | packet (id : Str) (sequence : UInt64) (payload : Bytes)
  | streamUpload (id : Str)
  | panic
  deriving DecidableEq, Repr

def validPath (base path : Str) : Bool :=
  path == base || (Str.stripPrefix base path).any (Str.startsWith '/')

/-- The value of a key in a `HashMap` collected from the pairs: a later pair replaces
    an earlier one. -/
def collected (pairs : List (Str × Str)) (key : Str) : Option Str :=
  pairs.foldl (fun found nv => if nv.1 = key then some nv.2 else found) none

def validQuery (H : Http) (expected actual : Option Str) : Bool :=
  match expected with
  | none => true
  | some expected =>
    (H.formParse expected).all fun kv => collected (actual.elim [] H.formParse) kv.1 == some kv.2

def validHost (H : Http) (host : Option Str) (headers : H.HeaderMap) : Bool :=
  host.all fun host => H.getStr headers "host" == some host

def authorized (H : Http) (config : TransportConfig) (headers : H.HeaderMap) : Bool :=
  match config.token with
  | none => true
  | some token => (H.getAll headers H.authorization).head?.bind H.toStr == some (bearer token)

/-- Every check in front of the dispatch. -/
def admitted (H : Http) (F : Huffman) (config : TransportConfig) (request : Request H) : Except Failure Bool :=
  if validPath config.path request.uri.path && validQuery H config.query request.uri.query &&
      validHost H config.host request.headers && authorized H config request.headers then
    validPadding H F config request.uri request.headers
  else .ok false

def packetUpload (H : Http) (B : Base64) (fuel : Nat) (config : TransportConfig) (id : Str)
    (sequence : UInt64) (request : Request H) : Outcome :=
  -- `axum::body::to_bytes` fails on a body longer than its limit
  if config.maxPacketSize < request.body.length then .status 413
  else
    match extractPayloadBytes H B fuel config request.headers request.body with
    | .error .panic => .panic
    | .error _ => .status 400
    | .ok payload => if config.maxPacketSize < payload.length then .status 413 else .packet id sequence payload

def dispatch (H : Http) (B : Base64) (fuel : Nat) (config : TransportConfig) (request : Request H) :
    Option Str × Option UInt64 → Outcome
  | (none, none) =>
    if request.method = "POST" ∧ (config.mode = .auto ∨ config.mode = .streamOne) then .streamOne
    else .status 405
  | (some id, some sequence) =>
    if config.mode = .auto ∨ config.mode = .packetUp then packetUpload H B fuel config id sequence request
    else .status 405
  | (some id, none) =>
    if request.method = "GET" then .download id
    else if config.mode = .auto ∨ config.mode = .streamUp then .streamUpload id
    else .status 405
  | (none, some _) => .status 405

def handler (H : Http) (B : Base64) (F : Huffman) (fuel : Nat) (config : TransportConfig)
    (request : Request H) : Outcome :=
  match admitted H F config request with
  | .error _ => .panic
  | .ok false => .status 404
  | .ok true =>
    if request.method = "OPTIONS" then .status 200
    else dispatch H B fuel config request (extractMetadata H config request.uri request.headers)

end Xhttp.Server
