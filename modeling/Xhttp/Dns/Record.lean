import Mathlib.Data.List.Sort
import Xhttp.Dns.Query

/- The records of a `predefined` DNS rule (`src/dns/message.rs`): their text, the response that
   `exchange` builds from them, and the addresses that `lookup_type` takes from them.

   `serde_json::Value` is known by what `as_u64` and `as_str` tell of it. More than 65535 records in a
   response overflow the counter `written`, which is a panic here. -/
namespace Xhttp.Dns
open Xhttp.Lib Vless Checked

inductive JsonValue where
  | u64 (n : UInt64)
  | str (s : Str)
  | other
  deriving DecidableEq, Repr

/-! ## Text -/

def rcodeNames : List (Str × UInt8) :=
  [("NOERROR", 0), ("FORMERR", 1), ("SERVFAIL", 2), ("NXDOMAIN", 3), ("NOTIMP", 4), ("REFUSED", 5)]

def parseRcode : Option JsonValue → Except Failure UInt8
  | none => .ok 0
  | some (.u64 n) =>
    if n.toNat < 256 then .ok (UInt8.ofNat n.toNat) else .error (.message "DNS rcode exceeds 255")
  | some (.str s) =>
    okOr (rcodeNames.lookup s) (.message ("unsupported DNS rcode: " ++ String.ofList s))
  | some .other => .error (.message "DNS rcode must be a number or string")

structure PredefinedRecord where
  owner : Str
  ttl : UInt32
  kind : UInt16
  rdata : Bytes
  deriving DecidableEq, Repr

/-- `tokens.next().context(..)`. -/
def nextToken (context : String) : List Str → Except Failure (Str × List Str)
  | token :: tokens => .ok (token, tokens)
  | [] => .error (.message context)

/-- The next token as a number of that many bytes, in big-endian order. -/
def numberField (size : Nat) (missing invalid : String) (tokens : List Str) : Except Failure (Bytes × List Str) := do
  let (token, tokens) ← nextToken missing tokens
  let value ← okOr (Str.parseUnsigned (256 ^ size) token) (.message invalid)
  pure (beBytes size value, tokens)

def numberFields (size : Nat) (missing invalid : String) : Nat → List Str → Except Failure (Bytes × List Str)
  | 0, tokens => .ok ([], tokens)
  | count + 1, tokens => do
    let (first, tokens) ← numberField size missing invalid tokens
    let (more, tokens) ← numberFields size missing invalid count tokens
    pure (first ++ more, tokens)

def nameField (missing : String) (tokens : List Str) : Except Failure (Bytes × List Str) := do
  let (token, tokens) ← nextToken missing tokens
  let name ← encodeName token
  pure (name, tokens)

def addressRdata (parsers : Parsers) (kind : String) (ipv4 : Bool) (tokens : List Str) : Except Failure Bytes := do
  let (token, _) ← nextToken (kind ++ " record is missing an address") tokens
  let address ← okOr (parsers.ip token) (.message ("invalid " ++ kind ++ " record address"))
  bailIf (address.isIpv4 ≠ ipv4) (kind ++ " record requires an IPv" ++ (if ipv4 then "4" else "6") ++ " address")
  pure address.octets

def nameRdata (tokens : List Str) : Except Failure Bytes := do
  let (name, _) ← nameField "record is missing a name" tokens
  pure name

def txtRdata (tokens : List Str) : Except Failure Bytes := do
  let texts ← tokens.mapM fun token => do
    let text := Str.trimMatches '"' token
    Checked.bailIf (255 < Str.len text) "TXT record string exceeds 255 bytes"
    pure (UInt8.ofNat (Str.len text) :: Str.asBytes text)
  Checked.bailIf (texts.flatten = []) "TXT record requires at least one string"
  pure texts.flatten

def mxRdata (tokens : List Str) : Except Failure Bytes := do
  let (preference, tokens) ← numberField 2 "MX record is missing a preference" "invalid MX preference" tokens
  let (exchange, _) ← nameField "MX record is missing an exchange" tokens
  pure (preference ++ exchange)

def soaRdata (tokens : List Str) : Except Failure Bytes := do
  let (mname, tokens) ← nameField "SOA record is missing mname" tokens
  let (rname, tokens) ← nameField "SOA record is missing rname" tokens
  let (numbers, _) ← numberFields 4 "SOA record is missing a numeric field" "invalid SOA numeric field" 5 tokens
  pure (mname ++ rname ++ numbers)

def srvRdata (tokens : List Str) : Except Failure Bytes := do
  let (numbers, tokens) ← numberFields 2 "SRV record is missing a numeric field" "invalid SRV numeric field" 3 tokens
  let (target, _) ← nameField "SRV record is missing a target" tokens
  pure (numbers ++ target)

def caaRdata (tokens : List Str) : Except Failure Bytes := do
  let (flags, tokens) ← numberField 1 "CAA record is missing flags" "invalid CAA flags" tokens
  let (tag, tokens) ← nextToken "CAA record is missing a tag" tokens
  let (value, _) ← nextToken "CAA record is missing a value" tokens
  pure (flags ++ [UInt8.ofNat (Str.len tag)] ++ Str.asBytes tag ++ Str.asBytes (Str.trimMatches '"' value))

/-- The types of records, their numbers and their data. -/
def recordTypes (parsers : Parsers) : List (Str × UInt16 × (List Str → Except Failure Bytes)) :=
  [("A", 1, addressRdata parsers "A" true), ("NS", 2, nameRdata), ("CNAME", 5, nameRdata),
    ("SOA", 6, soaRdata), ("PTR", 12, nameRdata), ("MX", 15, mxRdata), ("TXT", 16, txtRdata),
    ("AAAA", 28, addressRdata parsers "AAAA" false), ("SRV", 33, srvRdata), ("CAA", 257, caaRdata)]

/-- What may stand in the place of a TTL that is left out. -/
def ttlOmitted : List Str :=
  ["IN", "CH", "HS", "A", "AAAA", "CNAME", "NS", "PTR", "MX", "SOA", "TXT", "SRV", "CAA"]

def ttlField (tokens : List Str) : Except Failure (UInt32 × List Str) := do
  let (first, rest) ← nextToken "DNS record is missing fields" tokens
  match Str.parseUnsigned (2 ^ 32) first with
  | some ttl => .ok (UInt32.ofNat ttl, rest)
  | none =>
    if ttlOmitted.contains first then .ok (3600, first :: rest)
    else .error (.message ("invalid DNS record TTL: " ++ String.ofList first))

def parseDnsRecord (parsers : Parsers) (record : Str) : Except Failure PredefinedRecord := do
  let (owner, tokens) ← nextToken "empty DNS record" (Str.splitWhitespace record)
  let (ttl, tokens) ← ttlField tokens
  let (klass, tokens) ← nextToken "DNS record is missing a class" tokens
  bailIf (klass ≠ "IN") ("unsupported DNS record class: " ++ String.ofList klass)
  let (kind, tokens) ← nextToken "DNS record is missing a type" tokens
  let (number, data) ← okOr ((recordTypes parsers).lookup kind)
    (.message ("unsupported DNS record type: " ++ String.ofList kind))
  let rdata ← data tokens
  pure { owner := Str.trimEndMatches '.' owner, ttl, kind := number, rdata }

/-! ## The response -/

/-- The owner of a record in a response; a `*` stands for the name of the query, if that is under
    what follows it. -/
def responseOwner (queryName owner : Str) : Option Str :=
  match Str.stripPrefix ['*'] owner with
  | none => some owner
  | some remainder =>
    let remainder := Str.trimStartMatches '.' remainder
    if remainder = [] ∨ ('.' :: remainder) <:+ queryName then some queryName else none

/-- The loop over the records, with the response and the number of records written so far. -/
def appendRecords (queryName : Str) : List PredefinedRecord → Bytes → Nat → Except Failure (Bytes × Nat)
  | [], response, written => .ok (response, written)
  | record :: records, response, written =>
    match responseOwner queryName record.owner with
    | none => appendRecords queryName records response written
    | some owner => do
      let name ← encodeName owner
      if written + 1 < 2 ^ 16 then
        appendRecords queryName records
          (response ++ (name ++ recordTail record.kind 1 record.ttl record.rdata)) (written + 1)
      else .error .panic

def predefinedResponse (request : Bytes) (questionEnd : Nat) (rcode : UInt8) (records : List PredefinedRecord) :
    Except Failure Bytes := do
  let question ← parseQuestion request
  let response ← echo request questionEnd
  let header :=
    overwrite (overwrite response 2 [0x80 ||| 0x04 ||| 0x01, 0x80 ||| (rcode &&& 0x0f)]) 6 [0, 0, 0, 0, 0, 0]
  let (response, written) ← appendRecords question.name records header 0
  pure (overwrite response 6 (beU16 (UInt16.ofNat written)))

/-! ## The lookup -/

/-- The order of addresses: IPv4 first, then by number. -/
def addressLe (a b : IpAddr) : Prop := if a.isIpv4 = b.isIpv4 then a.bits ≤ b.bits else a.isIpv4 = true

instance : DecidableRel addressLe := fun a b =>
  inferInstanceAs (Decidable (if a.isIpv4 = b.isIpv4 then a.bits ≤ b.bits else a.isIpv4 = true))

def dedup : List IpAddr → List IpAddr
  | [] => []
  | [a] => [a]
  | a :: b :: rest => if a = b then dedup (b :: rest) else a :: dedup (b :: rest)

def sortDedup (addresses : List IpAddr) : List IpAddr := dedup (addresses.insertionSort addressLe)

theorem mem_dedup {a : IpAddr} : ∀ {addresses : List IpAddr}, a ∈ dedup addresses ↔ a ∈ addresses
  | [] => Iff.rfl
  | [_] => Iff.rfl
  | b :: c :: rest => by
    have ih : a ∈ dedup (c :: rest) ↔ a ∈ c :: rest := mem_dedup
    rw [dedup]
    grind

theorem mem_sortDedup {a : IpAddr} {addresses : List IpAddr} : a ∈ sortDedup addresses ↔ a ∈ addresses := by
  rw [sortDedup, mem_dedup, List.mem_insertionSort]

/-- The address that a lookup takes from a record. A record of type A whose data does not have four
    bytes is passed over, one of type AAAA without 16 is an error. -/
def lookupAddress (qtype : UInt16) (record : PredefinedRecord) : Except Failure (List IpAddr) :=
  if qtype = 1 ∧ record.kind = 1 then .ok (recordAddress 1 record.rdata).toList
  else if qtype = 28 ∧ record.kind = 28 then
    (okOr (recordAddress 28 record.rdata) (.message "invalid AAAA record")).map ([·])
  else .ok []

def predefinedLookup (parsers : Parsers) (qtype : UInt16) (rcode : Option JsonValue) (records : List Str) :
    Except Failure (List IpAddr) := do
  let rcode ← parseRcode rcode
  bailIf (rcode ≠ 0) ("DNS lookup rejected by rule with rcode " ++ toString rcode.toNat)
  let addresses ← records.mapM fun text => do
    let record ← parseDnsRecord parsers text
    lookupAddress qtype record
  pure (sortDedup addresses.flatten)

end Xhttp.Dns
