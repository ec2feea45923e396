import PepeuchCluster.Text.Lines
import PepeuchCluster.Worker.Assessment
import PepeuchCluster.Worker.Configuration
import PepeuchCluster.Worker.Requests

namespace pepeuch_worker

open control_plane (canonical encode)
open Lines Words

def REQUEST : String := "pepeuch.worker/verification-request/v1"

def REPLY : String := "pepeuch.worker/verification-decision/v1"

def MAX_FRAME : Nat := 131072

/-- The one refusal of the channel. -/
def unverified : Failure := Problem "os_isolation_not_verified" 503

/-- What the operating system, or the bytes that it returns, can raise. -/
inductive Fault where
  | os_error
  | struct_error
  | value_error
  | oversized

def Fault.failure : Fault → Failure
  | .os_error => .os_error
  | .struct_error => .struct_error
  | .value_error => .value_error
  | .oversized => Problem "oversized_kernel_observation"

/-- The result of a system call. -/
abbrev Syscall (α : Type) := Except Fault α

def returned {α : Type} (result : Syscall α) : Except Failure α := result.mapError Fault.failure

/-! ### Frames -/

/-- What `json.loads` leaves open: the text of bytes in UTF-16, in UTF-32 or with a byte order
    mark, and how deep the decoder follows a value before it raises RecursionError. -/
class Codecs where
  transcode : List UInt8 → Option String
  decode_depth : Nat

/-- `json.detect_encoding`: no byte order mark, and no zero where another encoding has one. -/
def isUtf8 (raw : List UInt8) : Bool :=
  ([[0xFE, 0xFF], [0xFF, 0xFE], [0xEF, 0xBB, 0xBF]].all fun mark => !mark.isPrefixOf raw) &&
    match raw with
  | a :: b :: _ :: _ :: _ => a ≠ 0 && b ≠ 0
  | [a, b] => a ≠ 0 && b ≠ 0
  | _ => true

/-- The end of `decode_json`: a value that is too deep and an integer that is too long are
    refused like any other text. -/
def decoded [Codecs] (value : Json) : Except Failure Unit :=
  (Json.traverse () () Codecs.decode_depth value).mapError fun _ => Problem "invalid_json"

/-- `decode_json`, of bytes. -/
def decode_bytes [Codecs] (raw : List UInt8) : Except Failure Json :=
  match if isUtf8 raw then String.fromUTF8? raw.toByteArray else Codecs.transcode raw with
  | some text => do
    let value ← lifted (control_plane.decode_json text)
    decoded value
    return value
  | none => .error (Problem "invalid_json")

/-- The credentials of the writer of a message: `struct ucred`. -/
structure Credentials where
  pid : Int
  uid : Int
  gid : Int
deriving DecidableEq

/-- An ancillary message: credentials, or another one whose descriptors are closed. -/
inductive Ancillary where
  | credentials (value : Credentials)
  | other (closed : Syscall Unit)

/-- One turn of the receiving loop: the clock, and what `recvmsg` returns. -/
structure Arrival where
  now : ℚ
  part : Syscall (List UInt8)
  ancillary : List Ancillary
  truncated : Bool

/-- The loop over the ancillary messages, with the descriptors closed on the way. -/
def credentials_of : List Ancillary → Except Failure (List Credentials × Bool)
  | [] => .ok ([], false)
  | .credentials value :: rest => do
    let (credentials, unexpected) ← credentials_of rest
    return (value :: credentials, unexpected)
  | .other closed :: rest => do
    returned closed
    let (credentials, _) ← credentials_of rest
    return (credentials, true)

/-- The writer of a part: credentials of the root user, alone, and those of the parts before. -/
def writer_of (writer : Option Credentials) (arrival : Arrival) : Except Failure Credentials := do
  let (credentials, unexpected) ← credentials_of arrival.ancillary
  match credentials with
  | [value] =>
    Except.require (arrival.truncated = false ∧ unexpected = false ∧ 0 < value.pid ∧
      value.uid = 0 ∧ value.gid = 0 ∧ ∀ other ∈ writer, other = value) unverified
    return value
  | _ => .error unverified

/-- `receive`: the bytes, their writer and what has not been received. After the last arrival
    nothing comes before the deadline. -/
def receive (deadline : ℚ) (size : Nat) (writer : Option Credentials) (parts : List UInt8) :
    List Arrival → Except Failure (List UInt8 × Option Credentials × List Arrival)
  | [] => if parts.length < size then .error .os_error else .ok (parts, writer, [])
  | arrival :: rest =>
    if parts.length < size then do
      Except.require (arrival.now < deadline) unverified
      let part ← returned arrival.part
      let value ← writer_of writer arrival
      Except.require (part ≠ []) unverified
      receive deadline size (some value) (parts ++ part.take (size - parts.length)) rest
    else .ok (parts, writer, arrival :: rest)

/-- `struct.unpack("!I", header)`. -/
def big_endian (header : List UInt8) : Nat :=
  header.foldl (fun value byte => 256 * value + byte.toNat) 0

/-- What one transfer meets: two seconds after its start the deadline, the system calls and
    what the other end writes. -/
structure Peer where
  deadline : ℚ
  passcred : Syscall Unit
  sent : Syscall Unit
  arrivals : List Arrival

/-- `struct.pack("!I", size)`. -/
def pack (size : Nat) : List UInt8 :=
  [UInt8.ofNat (size / 2 ^ 24), UInt8.ofNat (size / 2 ^ 16), UInt8.ofNat (size / 2 ^ 8),
    UInt8.ofNat size]

/-- What `transfer` gives to `sendall`. -/
def Interpreter.written (python : Interpreter) (raw : Json) : Except Failure (List UInt8) := do
  Json.traverse .recursion_error .value_error python.encode_depth raw
  Except.require ((encode (canonical raw)).length ≤ MAX_FRAME) unverified
  return pack (encode (canonical raw)).length ++ encode (canonical raw)

/-- What `transfer(sock, root_only=True)` receives. -/
def receive_frame [Codecs] (deadline : ℚ) (arrivals : List Arrival) :
    Except Failure (Json × Option Credentials) := do
  let (header, writer, arrivals) ← receive deadline 4 none [] arrivals
  Except.require (0 < big_endian header ∧ big_endian header ≤ MAX_FRAME) unverified
  let (body, writer, _) ← receive deadline (big_endian header) writer [] arrivals
  let value ← decode_bytes body
  return (value, writer)

/-- `transfer(sock, raw, root_only=True)`. -/
def Interpreter.transfer [Codecs] (python : Interpreter) (peer : Peer) (raw : Json) :
    Except Failure (Json × Option Credentials) := do
  returned peer.passcred
  let _ ← python.written raw
  returned peer.sent
  receive_frame peer.deadline peer.arrivals

/-! ### Decisions -/

def REPLY_FIELDS : List String :=
  ["schema", "nonce", "context_sha256", "configuration_sha256", "profile", "policy_sha256",
    "issued_monotonic", "expires_monotonic", "decision", "guarantees", "receipt_sha256"]

/-- A digest that is not all zeros. -/
def isDigest (data : Json) : Bool :=
  isHexText 64 data && data ≠ .str (String.ofList (List.replicate 64 '0'))

/-- One guarantee of a decision. -/
def guaranteed (item : Json) : Except Failure Unit := do
  fields item ["enforced", "verified", "evidence_sha256"]
  Except.require (item.item "enforced" = .bool true ∧ item.item "verified" = .bool true ∧
    isHexText 64 (item.item "evidence_sha256") = true) unverified

namespace Interpreter

variable (python : Interpreter)

/-- The tests of a decision that come before those of its window. -/
def scope (reply configuration context : Json) (nonce : String) : Except Failure Unit := do
  fields reply REPLY_FIELDS
  Except.require (reply.item "schema" = .str REPLY ∧ reply.item "nonce" = .str nonce ∧
    reply.item "decision" = .str "permit") unverified
  let context_sha256 ← python.digest context
  Except.require (reply.item "context_sha256" = .str context_sha256) unverified
  let configuration_sha256 ← python.digest configuration
  Except.require (reply.item "configuration_sha256" = .str configuration_sha256) unverified
  let profile ← subscript configuration "os_profile"
  let schema ← subscript profile "schema"
  Except.require ((reply.item "profile").equal schema = true) unverified
  Except.require (isDigest (reply.item "policy_sha256") = true ∧
    isDigest (reply.item "receipt_sha256") = true) unverified

def validate_decision (reply configuration context : Json) (nonce : String) (now : Number) :
    Except Failure Unit := do
  python.scope reply configuration context nonce
  let current ← isCurrent (reply.item "issued_monotonic") (reply.item "expires_monotonic") now 2
  Except.require (current = true) unverified
  Except.require ((reply.item "guarantees").HasKeys CHECKS) unverified
  (reply.item "guarantees").entries.forM fun entry => guaranteed entry.2

end Interpreter

/-! ### The session -/

/-- What a call of `check` finds around it: the descriptor and the socket, the identity of
    the process, its observation, the peer, the clock and a nonce. -/
structure Surroundings where
  dup : Syscall Unit
  socket : Syscall Unit
  unix : Bool
  stream : Bool
  peercred : Syscall Credentials
  uid_map : Syscall (List Char)
  pid : Int
  uid : Int
  euid : Int
  gid : Int
  egid : Int
  observations : Json
  nonce : String
  peer : Peer
  now : Reading
  close : Syscall Unit
  close_duplicate : Syscall Unit

structure VerificationSession where
  configuration : Configuration
  descriptor : Option Int

/-- What a session has pinned. -/
structure Pins where
  context : Option Json
  writer : Option Credentials
  policy_sha256 : Option Json

def Pins.start : Pins := ⟨none, none, none⟩

/-- The failures that `check` turns into its refusal. -/
def isCaught : Failure → Bool
  | .overflow_error | .recursion_error => false
  | _ => true

namespace VerificationSession

variable (session : VerificationSession) (python : Interpreter)

/-- The tests on the process that is observed. -/
def matching (call : Surroundings) (context : Json) : Except Failure Bool := do
  let profile ← subscript session.configuration.data "os_profile"
  let status ← get context "status"
  let status := either status (.obj [])
  .every ([
    reads context "pid" (.ok (integer call.pid)),
    .ok (decide (call.uid = call.euid ∧ call.gid = call.egid)),
    do return (integer call.euid).equal (← subscript profile "expected_uid"),
    do return (integer call.egid).equal (← subscript profile "expected_gid"),
    .ok (decide (call.euid ≠ 0 ∧ call.egid ≠ 0)),
    do return !(integer call.euid).equal (← subscript profile "backend_uid"),
    reads call.observations "configuration_sha256"
      (do return .str (← python.digest session.configuration.data)),
    reads status "Uid" (four <$> subscript profile "expected_uid"),
    reads status "Gid" (four <$> subscript profile "expected_gid"),
    reads status "NoNewPrivs" (.ok (integer 1))] ++
    CAPABILITY_SETS.map fun key => reads status key (.ok (integer 0)))

/-- Everything that is tested before the peer is asked; the context that is sent to it. -/
def context_of (call : Surroundings) : Except Failure Json := do
  Except.require (call.unix = true ∧ call.stream = true) unverified
  let credentials ← returned call.peercred
  Except.require (0 < credentials.pid ∧ credentials.uid = 0 ∧ credentials.gid = 0) unverified
  let uid_map ← returned call.uid_map
  Except.require (words isWhite uid_map = [['0'], ['0'], "4294967295".toList]) unverified
  let synthetic ← get call.observations "synthetic"
  Except.require (synthetic = .bool false) unverified
  let stable ← get call.observations "stable"
  Except.require (stable = .bool true) unverified
  let unavailable ← get call.observations "unavailable"
  Except.require (truthy unavailable = false) unverified
  let context ← subscript call.observations "process"
  let holds ← session.matching python call context
  Except.require (holds = true) unverified
  return context

/-- The comparison with the context that is pinned. -/
def same_context (pins : Pins) (context : Json) : Except Failure Unit :=
  match pins.context with
  | none => .ok ()
  | some pinned => do
    let same ← python.same pinned context
    Except.require (same = true) unverified

def request (call : Surroundings) (context : Json) : Json :=
  .dict [("schema", .str REQUEST), ("nonce", .str call.nonce),
    ("configuration", session.configuration.data), ("context", context)]

/-- The body of the `with` statement, up to the new pins. -/
def attempt [Codecs] (pins : Pins) (call : Surroundings) : Except Failure Pins := do
  let context ← session.context_of python call
  same_context python pins context
  let (reply, writer) ← python.transfer call.peer (session.request call context)
  python.validate_decision reply session.configuration.data context call.nonce call.now.value
  Except.require ((∀ pinned ∈ pins.writer, some pinned = writer) ∧
    ∀ pinned ∈ pins.policy_sha256, pinned.equal (reply.item "policy_sha256") = true) unverified
  let context ← python.deepcopy context
  return ⟨some context, writer, some (reply.item "policy_sha256")⟩

end VerificationSession

/-- The `except` clause of `check`. -/
def raised (failure : Failure) : Except Failure Unit :=
  .error (if isCaught failure then unverified else failure)

/-- `type(descriptor) is int and 3 <= descriptor <= 1024`. -/
def isDescriptor : Option Int → Bool
  | some descriptor => 3 ≤ descriptor && descriptor ≤ 1024
  | none => false

/-- `VerificationSession.check`: what it returns, and what it leaves pinned. The socket is closed
    at the end of the `with` statement, the duplicate where no socket was made of it. -/
def VerificationSession.check [Codecs] (session : VerificationSession) (python : Interpreter)
    (pins : Pins) (call : Surroundings) :
    Except Failure Unit × Pins :=
  if isDescriptor session.descriptor = false then (raised unverified, pins)
  else match returned call.dup, returned call.socket, returned call.close_duplicate with
    | .error failure, _, _ => (raised failure, pins)
    | .ok _, .error failure, .ok _ => (raised failure, pins)
    | .ok _, .error _, .error failure => (.error failure, pins)
    | .ok _, .ok _, _ =>
      match session.attempt python pins call, returned call.close with
      | .ok pins, .ok _ => (.ok (), pins)
      | .ok pins, .error failure => (raised failure, pins)
      | .error failure, .ok _ => (raised failure, pins)
      | .error _, .error failure => (raised failure, pins)

end pepeuch_worker
