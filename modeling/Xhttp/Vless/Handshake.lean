import Xhttp.Lib.Checked
import Xhttp.Lib.Text

/- The VLESS handshake (`src/vless.rs`): the request a client writes, the
   server's reading of it, and the response.

   `Uuid::parse_str` (crate `uuid`) is the parameter `parseUuid`; nothing is
   assumed of it. `flush` does nothing here: a write is on the stream at once. -/
namespace Xhttp.Vless
open Xhttp.Lib Checked

inductive IpAddr where
  | v4 (octets : Vector UInt8 4)
  | v6 (octets : Vector UInt8 16)
  deriving DecidableEq, Repr

inductive Destination where
  | ip (addr : IpAddr) (port : UInt16)
  | domain (name : Str) (port : UInt16)
  deriving DecidableEq, Repr

def Destination.port : Destination → UInt16
  | .ip _ p | .domain _ p => p

inductive Command where
  | tcp
  | udp
  | xudp
  deriving DecidableEq, Repr

structure Request where
  command : Command
  destination : Destination
  deriving DecidableEq, Repr

abbrev Uuid := Vector UInt8 16

/-! ## Reading -/

/-- `if n > 0` skip `n` bytes: the addons of a request or a response. -/
def skipAddons (n : UInt8) : Io Failure Unit :=
  if 0 < n.toNat then do
    let _ ← Io.readExact n.toNat
    pure ()
  else pure ()

def Command.ofByte : UInt8 → Except Failure Command
  | 1 => .ok .tcp
  | 2 => .ok .udp
  | 3 => .ok .xudp
  | value => .error (.message ("unsupported VLESS command " ++ toString value))

def readIpv4 (port : UInt16) : Io Failure Destination := do
  let b ← Io.readArray 4
  pure (.ip (.v4 b) port)

def readDomain (port : UInt16) : Io Failure Destination := do
  let n ← Io.readU8
  let b ← Io.readExact n.toNat
  let name ← Io.lift (okOr (Str.fromUtf8 b) .utf8)
  pure (.domain name port)

def readIpv6 (port : UInt16) : Io Failure Destination := do
  let b ← Io.readArray 16
  pure (.ip (.v6 b) port)

/-- The arm of `read_destination` for an address type. -/
def readAddress (port : UInt16) : UInt8 → Io Failure Destination
  | 1 => readIpv4 port
  | 2 => readDomain port
  | 3 => readIpv6 port
  | v => Io.bail (.message ("unknown VLESS address type " ++ toString v))

def readDestination : Io Failure Destination := do
  let port ← Io.readU16
  let type ← Io.readU8
  readAddress port type

/-- The destination of a request: XUDP names one in each frame instead. -/
def readTarget (command : Command) : Io Failure Destination :=
  if command = .xudp then pure (.domain [] 0) else readDestination

def serve (parseUuid : Str → Option Uuid) (users : List Str) : Io Failure Request := do
  let version ← Io.readU8
  Io.bailIf (version ≠ 0) (.message "unsupported VLESS version")
  let id ← Io.readArray 16
  Io.bailIf (¬ (users.filterMap parseUuid).any (· == id)) (.message "unknown VLESS user")
  let addons ← Io.readU8
  skipAddons addons
  let code ← Io.readU8
  let command ← Io.lift (Command.ofByte code)
  let destination ← readTarget command
  Io.writeAll [0, 0]
  pure { command, destination }

def readResponse : Io Failure Unit := do
  let version ← Io.readU8
  Io.bailIf (version ≠ 0) (.message "invalid VLESS response")
  let n ← Io.readU8
  skipAddons n

/-! ## Writing -/

def Command.toByte : Command → UInt8
  | .tcp => 1
  | .udp => 2
  | .xudp => 3

/-- Port, address type and address. A handshake and an XUDP frame lay a destination
    out alike and differ in the message for a domain longer than a length byte. -/
def encodeDestination (tooLong : String) (destination : Destination) : Except Failure Bytes :=
  let port := beU16 destination.port
  match destination with
  | .ip (.v4 octets) _ => .ok (port ++ (1 :: octets.toList))
  | .domain name _ =>
    if 255 < name.len then .error (.message tooLong)
    else .ok (port ++ (2 :: UInt8.ofNat name.len :: name.asBytes))
  | .ip (.v6 octets) _ => .ok (port ++ (3 :: octets.toList))

def writeRequestWithCommand (parseUuid : Str → Option Uuid) (user : Str) (command : Command)
    (destination : Destination) : Io Failure Unit := do
  let id ← Io.lift (okOr (parseUuid user) (.message "invalid VLESS UUID"))
  let request := [0] ++ id.toList ++ [0, command.toByte]
  if command = .xudp then Io.writeAll request
  else do
    let address ← Io.lift (encodeDestination "domain too long" destination)
    Io.writeAll (request ++ address)

/-! ## Round trip -/

/-- The domain fits the length byte. -/
def Destination.Fits : Destination → Prop
  | .ip _ _ => True
  | .domain name _ => name.len ≤ 255

def Destination.layout (destination : Destination) : Bytes :=
  beU16 destination.port ++ match destination with
    | .ip (.v4 octets) _ => 1 :: octets.toList
    | .domain name _ => 2 :: UInt8.ofNat name.len :: name.asBytes
    | .ip (.v6 octets) _ => 3 :: octets.toList

theorem encodeDestination_of_fits {destination : Destination} (h : destination.Fits)
    (tooLong : String) : encodeDestination tooLong destination = .ok destination.layout := by
  cases destination with
  | ip addr port => cases addr <;> rfl
  | domain name port =>
    simp only [Destination.Fits] at h
    simp only [encodeDestination, Destination.layout]
    rw [if_neg (by omega)]

theorem toNat_lengthByte {name : Str} (h : name.len ≤ 255) : (UInt8.ofNat name.len).toNat = name.asBytes.length := calc
  _ = name.len % 256 := UInt8.toNat_ofNat'
  _ = name.len := Nat.mod_eq_of_lt (by omega)
  _ = name.asBytes.length := (Str.asBytes_length name).symm

theorem readDomain_runs {name : Str} (h : name.len ≤ 255) (port : UInt16) :
    Runs (readDomain port) (UInt8.ofNat name.len :: name.asBytes) (.domain name port) [] := by
  have hbody : Runs (Io.readExact (UInt8.ofNat name.len).toNat : Io Failure Bytes)
      name.asBytes name.asBytes [] := by
    rw [toNat_lengthByte h]
    exact Runs.readExact _
  have hname : okOr (Str.fromUtf8 name.asBytes) .utf8 = .ok name := by
    rw [Str.fromUtf8_asBytes]
    rfl
  apply hbody.last_bind
  exact (Runs.lift hname).last_bind (Runs.pure _)

theorem readDestination_runs {destination : Destination} (h : destination.Fits) :
    Runs readDestination destination.layout destination [] := by
  apply (Runs.readU16 _).read_bind
  cases destination with
  | ip addr port =>
    cases addr with
    | v4 octets =>
      have harm : Runs (readAddress port 1) octets.toList (.ip (.v4 octets) port) [] :=
        (Runs.readArray octets).last_bind (Runs.pure _)
      exact (Runs.readU8 1).read_bind harm
    | v6 octets =>
      have harm : Runs (readAddress port 3) octets.toList (.ip (.v6 octets) port) [] :=
        (Runs.readArray octets).last_bind (Runs.pure _)
      exact (Runs.readU8 3).read_bind harm
  | domain name port =>
    have harm : Runs (readAddress port 2) _ (.domain name port) [] := readDomain_runs h port
    exact (Runs.readU8 2).read_bind harm

theorem skipAddons_zero_runs : Runs (skipAddons 0) [] () [] := Runs.pure ()

theorem ofByte_toByte (command : Command) : Command.ofByte command.toByte = .ok command := by
  cases command <;> rfl

/-- What follows the id in a request: no addons, the command, and the destination
    unless the command is XUDP. -/
def requestTail (command : Command) (destination : Destination) : Bytes :=
  [0, command.toByte] ++ if command = .xudp then [] else destination.layout

variable {parseUuid : Str → Option Uuid} {id : Uuid} {users : List Str}

theorem writeRequestWithCommand_runs {user : Str}
    (huser : parseUuid user = some id) (command : Command) {destination : Destination} (h : destination.Fits) :
    Runs (writeRequestWithCommand parseUuid user command destination) [] ()
      ([0] ++ id.toList ++ requestTail command destination) := by
  have hid : okOr (parseUuid user) (.message "invalid VLESS UUID") = .ok id := by
    rw [huser]
    rfl
  apply (Runs.lift hid).pass_bind
  simp only [requestTail]
  split
  · -- an XUDP request ends with the command
    exact Runs.writeAll _
  · rw [← List.append_assoc]
    exact (Runs.lift (encodeDestination_of_fits h "domain too long")).bind (Runs.writeAll _)

/-- The destination `serve` reports: XUDP requests name theirs frame by frame. -/
def Command.destination (command : Command) (destination : Destination) : Destination :=
  if command = .xudp then .domain [] 0 else destination

theorem serve_runs (hlisted : ∃ v ∈ users, parseUuid v = some id) (command : Command) {destination : Destination}
    (h : destination.Fits) : Runs (serve parseUuid users) ([0] ++ id.toList ++ requestTail command destination)
      ⟨command, command.destination destination⟩ [0, 0] := by
  have hany : (users.filterMap parseUuid).any (· == id) = true :=
    List.any_eq_true.mpr ⟨id, List.mem_filterMap.mpr hlisted, beq_self_eq_true id⟩
  have hdest : Runs (readTarget command) (if command = .xudp then [] else destination.layout)
      (command.destination destination) [] := by
    unfold readTarget Command.destination
    split
    · exact Runs.pure _
    · exact readDestination_runs h
  -- read by read, each on its own stretch of the request
  apply (Runs.readArray id).read_bind
  apply (Runs.bailIf (by rw [hany]; decide)).pass_bind
  apply (Runs.lift (ofByte_toByte command)).pass_bind
  apply hdest.last_bind
  exact (Runs.writeAll [0, 0]).bind (Runs.pure _)

theorem readResponse_runs : Runs readResponse [0, 0] () [] := skipAddons_zero_runs

/-- The id is checked before anything is written. -/
theorem serve_unlisted {s : Stream} (h : ∀ v ∈ users, ∀ id, parseUuid v = some id → s.input.tail.take 16 ≠ id.toList) :
    Fails (serve parseUuid users) s := by
  apply Fails.bind Quiet.readU8
  intro version m hm
  apply Fails.bind (Quiet.bailIf _ _)
  intro _ m' hm'
  apply Fails.bind (Quiet.readArray 16)
  intro id m'' hm''
  apply Fails.bailIf
  -- the sixteen bytes behind the version are the id, which no listed user has
  have hinput : s.input.tail.take 16 = id.toList := by
    rw [Io.readU8_ok_iff.mp hm, (Io.bailIf_ok_iff.mp hm').2, Io.readArray_ok_iff.mp hm'']
    exact List.take_left' id.length_toList
  grind

/-- **Handshake round trip.** For every user id on the list, every command and every
    destination that fits the format, `serve` reads from the request exactly the
    command and, unless the command is XUDP, the destination; it leaves what follows
    the request unread, and its answer is exactly what `read_response` reads. On a
    stream whose sixteen id bytes are not a listed id it fails and writes nothing. -/
theorem handshake_round_trip (parseUuid : Str → Option Uuid) (users : List Str) :
    (∀ user id command destination, (∃ v ∈ users, parseUuid v = some id) →
      parseUuid user = some id → Destination.Fits destination →
      ∃ request response, Runs (writeRequestWithCommand parseUuid user command destination) [] () request ∧
        Runs (serve parseUuid users) request ⟨command, command.destination destination⟩ response ∧
        Runs readResponse response () []) ∧
    (∀ s : Stream, (∀ v ∈ users, ∀ id, parseUuid v = some id → s.input.tail.take 16 ≠ id.toList) →
      Fails (serve parseUuid users) s) := by
  refine ⟨?_, fun s => serve_unlisted⟩
  intro user id command destination hlisted huser hfits
  exact ⟨_, [0, 0], writeRequestWithCommand_runs huser command hfits,
    serve_runs hlisted command hfits, readResponse_runs⟩

def hexBytes : Str → Option Bytes
  | [] => some []
  | [_] => none
  | hi :: lo :: rest => do
    let h ← Str.hexDigit hi
    let l ← Str.hexDigit lo
    let bs ← hexBytes rest
    some (UInt8.ofNat (16 * h + l) :: bs)

/-- `Uuid::parse_str` on its hyphenated form. -/
def parseHyphenated (s : Str) : Option Uuid :=
  match (Str.split '-' s).map List.length, hexBytes (s.filter (· ≠ '-')) with
  | [8, 4, 4, 4, 12], some bs => if h : bs.length = 16 then some ⟨bs.toArray, by simp [h]⟩ else none
  | _, _ => none

/-- A client that spells its id in upper case, against a list in lower case; and a
    stream of zeros, whose id is not on the list. -/
theorem handshake_round_trip_spelling :
    (∃ request response, Runs (writeRequestWithCommand parseHyphenated "F47AC10B-58CC-4372-A567-0E02B2C3D479"
        .udp (.domain "example.com" 443)) [] () request ∧
      Runs (serve parseHyphenated ["f47ac10b-58cc-4372-a567-0e02b2c3d479"]) request
        ⟨.udp, .domain "example.com" 443⟩ response ∧
      Runs readResponse response () []) ∧
    Fails (serve parseHyphenated ["f47ac10b-58cc-4372-a567-0e02b2c3d479"])
      ⟨List.replicate 20 0, []⟩ := by
  have h := handshake_round_trip parseHyphenated ["f47ac10b-58cc-4372-a567-0e02b2c3d479"]
  have hlisted : parseHyphenated "f47ac10b-58cc-4372-a567-0e02b2c3d479" =
      some #v[0xf4, 0x7a, 0xc1, 0x0b, 0x58, 0xcc, 0x43, 0x72, 0xa5, 0x67, 0x0e, 0x02, 0xb2, 0xc3,
        0xd4, 0x79] := by decide
  refine ⟨h.1 "F47AC10B-58CC-4372-A567-0E02B2C3D479" _ .udp _
    ⟨_, List.mem_singleton_self _, hlisted⟩ (by decide) ?_, h.2 _ ?_⟩
  · show Str.len "example.com" ≤ 255
    decide
  grind

/-! ## What is accepted -/

variable {s s' : Stream} {d : Destination} {command : Command}

theorem readDestination_ok_iff :
    readDestination s = (.ok d, s') ↔ d.Fits ∧ s = ⟨d.layout ++ s'.input, s'.output⟩ := by
  constructor
  · intro h
    simp only [readDestination, Io.bind_ok_iff, Io.readU8_ok_iff, Io.readU16_ok_iff] at h
    obtain ⟨port, _, ⟨hi, lo, rfl, rfl⟩, type, m, rfl, h⟩ := h
    unfold readAddress at h
    split at h
    on_goal 4 => cases h
    on_goal 2 =>
      simp only [readDomain, Io.bind_ok_iff, Io.readU8_ok_iff, Io.readExact_ok_iff, Io.lift_ok_iff, okOr_ok_iff,
        Io.pure_ok_iff] at h
      obtain ⟨n, _, rfl, bs, _, ⟨hlen, rfl⟩, name, _, ⟨hname, rfl⟩, rfl, rfl⟩ := h
      have hbytes := Str.asBytes_of_fromUtf8 hname
      have hn : name.len = n.toNat := by rw [← Str.asBytes_length, hbytes, hlen]
      exact ⟨hn.trans_le (Nat.le_of_lt_succ n.toNat_lt),
        by simp [Destination.layout, Destination.port, beU16_ofBeU16, hn, hbytes]⟩
    all_goals
      simp only [readIpv4, readIpv6, Io.bind_ok_iff, Io.readArray_ok_iff, Io.pure_ok_iff] at h
      obtain ⟨octets, _, rfl, rfl, rfl⟩ := h
      exact ⟨trivial, by simp [Destination.layout, Destination.port, beU16_ofBeU16]⟩
  · rintro ⟨hfits, rfl⟩
    simpa using readDestination_runs hfits s'.input s'.output

theorem readTarget_ok_iff : readTarget command s = (.ok d, s') ↔
    (if command = .xudp then d = .domain [] 0 else d.Fits) ∧
      s = ⟨(if command = .xudp then [] else d.layout) ++ s'.input, s'.output⟩ := by
  unfold readTarget
  split
  · exact Io.pure_ok_iff.trans (and_congr_left' eq_comm)
  · exact readDestination_ok_iff

theorem skipAddons_ok_iff {n : UInt8} {u : Unit} :
    skipAddons n s = (.ok u, s') ↔ ∃ addons : Bytes, addons.length = n.toNat ∧ s = ⟨addons ++ s'.input, s'.output⟩ := by
  unfold skipAddons
  split
  · simp [Io.bind_ok_iff, Io.readExact_ok_iff, Io.pure_ok_iff]
  · have hn : n.toNat = 0 := by omega
    simp [Io.pure_ok_iff, hn]

theorem ofByte_ok_iff {code : UInt8} : Command.ofByte code = .ok command ↔ code = command.toByte := by
  refine ⟨fun h => ?_, fun h => h ▸ ofByte_toByte command⟩
  unfold Command.ofByte at h
  split at h <;> cases h <;> rfl

/-- **Requests that are accepted.** On every stream: exactly those of version 0 with the id of a listed user,
    addons of the length announced, a known command and, unless that is XUDP, a destination. What follows is
    left unread. -/
theorem serve_accepts_iff (parseUuid : Str → Option Uuid) (users : List Str) (command : Command) (d : Destination)
    (input rest out out' : Bytes) : serve parseUuid users ⟨input, out⟩ = (.ok ⟨command, d⟩, ⟨rest, out'⟩) ↔
      out' = out ++ [0, 0] ∧ ∃ (id : Uuid) (n : UInt8) (addons : Bytes),
        (∃ v ∈ users, parseUuid v = some id) ∧ addons.length = n.toNat ∧
        (if command = .xudp then d = .domain [] 0 else d.Fits) ∧
        input = 0 ::
          (id.toList ++ n :: (addons ++ command.toByte :: ((if command = .xudp then [] else d.layout) ++ rest))) := by
  have hlisted : ∀ id, ¬¬(users.filterMap parseUuid).any (· == id) = true ↔ ∃ v ∈ users, parseUuid v = some id := by
    intro id
    rw [not_not, List.any_beq', List.elem_iff, List.mem_filterMap]
  simp only [serve, Io.bind_ok_iff, Io.readU8_ok_iff, Io.readArray_ok_iff, Io.bailIf_ok_iff,
    Io.lift_ok_iff, ofByte_ok_iff,
    Io.writeAll_ok_iff, skipAddons_ok_iff, Io.pure_ok_iff, readTarget_ok_iff, hlisted]
  constructor
  · rintro ⟨_, _, ⟨⟩, _, _, ⟨hversion, rfl⟩, id, _, rfl, _, _, ⟨hid, rfl⟩, n, _, rfl, _, _,
      ⟨addons, hlen, rfl⟩, _, _, rfl, _, _, ⟨rfl, rfl⟩, _, _, ⟨hd, rfl⟩, _, _, rfl, ⟨⟩, ⟨⟩⟩
    cases not_not.mp hversion
    exact ⟨rfl, id, n, addons, hid, hlen, hd, rfl⟩
  · rintro ⟨rfl, id, n, addons, hid, hlen, hd, rfl⟩
    exact ⟨0, ⟨_, out⟩, rfl, (), _, ⟨by simp, rfl⟩, id, ⟨_, out⟩, rfl, (), _, ⟨hid, rfl⟩, n, ⟨_, out⟩,
      rfl, (), ⟨_, out⟩,
      ⟨addons, hlen, rfl⟩, _, ⟨_, out⟩, rfl, command, _, ⟨rfl, rfl⟩, d, ⟨_, out⟩, ⟨hd, rfl⟩, (), _, rfl, rfl, rfl⟩

end Xhttp.Vless
