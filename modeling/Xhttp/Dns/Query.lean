import Xhttp.Dns.Layout
import Xhttp.Net

/- DNS queries and responses as the resolver reads and writes them (`src/dns/message.rs`).

   A name on the wire is a list of labels, each behind its length, with a zero at the end. What
   `parse_question` accepts is described by its labels (`parseQuestion_ok_iff`), and so is what
   `encode_name` writes (`encodeName_ok_iff`); `skip_name` passes over such a name if it has at most 127
   labels (`skipName_wireName`). The rest of the development about messages is stated in labels.

   `str::parse` of an address and of a prefix are the parameter `Parsers`. -/
namespace Xhttp.Dns
open Xhttp.Lib Vless List Checked

/-- `str::parse::<IpAddr>` and `str::parse::<IpNet>`. -/
structure Parsers where
  ip : Str → Option IpAddr
  ipNet : Str → Option IpNet

/-! ## Names -/

def normalize (s : Str) : Str := Str.toAsciiLowercase (Str.trimEndMatches '.' s)

def labelBytes (invalid : Failure) : List Str → Except Failure Bytes
  | [] => .ok []
  | label :: rest => do
    if label = [] ∨ 63 < Str.len label then .error invalid
    else
      let more ← labelBytes invalid rest
      pure (UInt8.ofNat (Str.len label) :: Str.asBytes label ++ more)

def encodeName (name : Str) : Except Failure Bytes := do
  let name := Str.trimEndMatches '.' name
  if name = [] then pure [0]
  else
    let labels ← labelBytes (.message ("invalid DNS record name: " ++ String.ofList name)) (Str.split '.' name)
    pure (labels ++ [0])

/-! ## Queries -/

structure Question where
  name : Str
  qtype : UInt16
  questionEnd : Nat
  deriving DecidableEq, Repr

/-- The labels from a position on, and the position behind them. The first argument bounds the rounds; a
    round reads at least one byte, so the message ends before the bound is reached. -/
def questionLabels (request : Bytes) : Nat → Nat → Except Failure (List Str × Nat)
  | 0, _ => .error (.message "truncated DNS question")
  | bound + 1, position =>
    match request[position]? with
    | none => .error (.message "truncated DNS question")
    | some length =>
      if length = 0 then .ok ([], position + 1)
      else if 63 < length then .error (.message "compressed DNS questions are unsupported")
      else if request.length < position + 1 + length.toNat then .error (.message "truncated DNS question label")
      else do
        let label ← okOr (Str.fromUtf8 ((request.drop (position + 1)).take length.toNat)) .utf8
        let (labels, position) ← questionLabels request bound (position + 1 + length.toNat)
        pure (label :: labels, position)

def parseQuestion (request : Bytes) : Except Failure Question := do
  bailIf (request.length < 12) "invalid DNS query"
  let questions ← u16At request 4
  bailIf (questions = 0) "invalid DNS query"
  let (labels, position) ← questionLabels request request.length 12
  bailIf (request.length < position + 4) "truncated DNS question fields"
  let qtype ← u16At request position
  pure { name := normalize (List.intercalate ['.'] labels), qtype, questionEnd := position + 4 }

section
variable (parsers : Parsers)

def parseClientSubnet (value : Str) : Except Failure IpNet :=
  match parsers.ipNet value with
  | some net => .ok net
  | none =>
    match parsers.ip value with
    | some address => .ok ⟨address, address.width⟩
    | none => .error (.message ("invalid DNS client_subnet: " ++ String.ofList value))

def appendClientSubnetOpt (output : Bytes) (subnet : Str) : Except Failure Bytes := do
  let net ← parseClientSubnet parsers subnet
  let family : UInt16 := if net.addr.isIpv4 then 1 else 2
  let addressLength := (net.prefixLen + 7) / 8
  let optionLength ← tryIntoU16 (4 + addressLength) (.message "EDNS client subnet option is too large")
  let address ← slice net.network.octets 0 addressLength
  pure (output ++ [0] ++ beU16 41 ++ beU16 1232 ++ beU32 0 ++ beU16 (4 + optionLength) ++ beU16 8 ++
    beU16 optionLength ++ beU16 family ++ [UInt8.ofNat net.prefixLen, 0] ++ address)

def buildQueryWithSubnet (id : UInt16) (name : Str) (qtype : UInt16) (clientSubnet : Option Str) :
    Except Failure Bytes := do
  let header := beU16 id ++ [1, 0, 0, 1, 0, 0, 0, 0, 0, if clientSubnet.isSome then 1 else 0]
  let labels ← labelBytes (.message "invalid DNS name") (Str.split '.' name)
  let query := header ++ labels ++ [0] ++ beU16 qtype ++ beU16 1
  match clientSubnet with
  | some subnet => appendClientSubnetOpt parsers query subnet
  | none => pure query

def addClientSubnet (request : Bytes) (subnet : Str) : Except Failure Bytes := do
  bailIf (request.length < 12) "invalid DNS query"
  let additionals ← u16At request 10
  bailIf (additionals ≠ 0)
    "DNS client_subnet cannot be added to a query that already has additional records"
  appendClientSubnetOpt parsers (overwrite request 10 (beU16 1)) subnet

end

def canonicalQuery (request : Bytes) : Bytes :=
  if 2 ≤ request.length then overwrite request 0 [0, 0] else request

/-! ## Responses -/

def validateResponse (expectedId : UInt16) (response : Bytes) : Except Failure Unit := do
  bailIf (response.length < 12) "truncated DNS response"
  let id ← dnsId response
  bailIf (id ≠ expectedId) "DNS response transaction ID mismatch"
  let flags ← index response 2
  bailIf (flags &&& 0x80 = 0) "DNS message is not a response"

def minTtl (a b : UInt32) : UInt32 := if a ≤ b then a else b

def responseTtl (response : Bytes) : UInt32 :=
  match ttlOffsets response with
  | .error _ => 30
  | .ok fields =>
    match (fields.filter fun f => f.recordType ≠ 41).map TtlField.ttl with
    | [] => 30
    | ttl :: ttls => ttls.foldl minTtl ttl

def rewriteResponseTtls (response : Bytes) (replacement : UInt32) : Bytes :=
  overwriteTtls (fun _ => replacement) response

/-- The address in the data of a record of this type, if the data has the right length. -/
def recordAddress (qtype : UInt16) (rdata : Bytes) : Option IpAddr :=
  if qtype = 1 then (vectorOf 4 rdata).map .v4
  else if qtype = 28 then (vectorOf 16 rdata).map .v6
  else none

/-- The loop over the answers, with what was found so far. -/
def readAnswers (b : Bytes) (qtype : UInt16) : Nat → Nat → List IpAddr → UInt32 → Except Failure (List IpAddr × UInt32)
  | 0, _, out, ttl => .ok (out, ttl)
  | answers + 1, p, out, ttl => do
    let p ← skipName b p
    bailIf (b.length < p + 10) "truncated DNS answer"
    let typ ← u16At b p
    let recordTtl ← u32At b (p + 4)
    let len ← u16At b (p + 8)
    bailIf (b.length < p + 10 + len.toNat) "truncated DNS rdata"
    if typ = qtype then
      let rdata ← slice b (p + 10) (p + 10 + len.toNat)
      readAnswers b qtype answers (p + 10 + len.toNat) (out ++ (recordAddress typ rdata).toList) (minTtl ttl recordTtl)
    else readAnswers b qtype answers (p + 10 + len.toNat) out ttl

def answersOf (qtype : UInt16) (b : Bytes) : Except Failure (List IpAddr × UInt32) := do
  let questions ← u16At b 4
  let answers ← u16At b 6
  let p ← skipQuestions b questions.toNat 12
  let (out, ttl) ← readAnswers b qtype answers.toNat p [] 0xffffffff
  pure (out, if ttl = 0xffffffff then 30 else ttl)

def parseResponse (id qtype : UInt16) (b : Bytes) : Except Failure (List IpAddr × UInt32) := do
  bailIf (b.length < 12) "invalid DNS response"
  let responseId ← u16At b 0
  bailIf (responseId ≠ id) "invalid DNS response"
  let flags ← u16At b 2
  bailIf (flags &&& 0x8000 = 0 ∨ flags &&& 15 ≠ 0)
    ("DNS error rcode " ++ toString (flags &&& 15).toNat)
  answersOf qtype b

/-- The question of a request, as the start of a response. -/
def echo (request : Bytes) (questionEnd : Nat) : Except Failure Bytes :=
  if questionEnd ≤ request.length then .ok (request.take questionEnd) else .error (.message "truncated DNS question")

def refusedResponse (request : Bytes) (questionEnd : Nat) : Except Failure Bytes := do
  let response ← echo request questionEnd
  let flags ← index response 2
  let rcode ← index response 3
  pure (overwrite (overwrite response 2 [flags ||| 0x80, (rcode &&& 0xf0) ||| 5]) 6 [0, 0, 0, 0, 0, 0])

/-- An answer with a pointer to the name of the question. -/
def localRecord (qtype : UInt16) (address : IpAddr) : Bytes :=
  [0xc0, 0x0c] ++ beU16 qtype ++ beU16 1 ++ beU32 30 ++ beU16 (UInt16.ofNat address.octets.length) ++ address.octets

def ofType (qtype : UInt16) (addresses : List IpAddr) : List IpAddr :=
  addresses.filter fun a => (qtype = 1 ∧ a.isIpv4 = true) ∨ (qtype = 28 ∧ a.isIpv4 = false)

def localResponse (request : Bytes) (qtype : UInt16) (questionEnd : Nat) (found : List IpAddr) :
    Except Failure Bytes := do
  let addresses := ofType qtype found
  let response ← slice request 0 questionEnd
  let header :=
    overwrite (overwrite (overwrite response 2 [0x81, 0x80]) 6 (beU16 (UInt16.ofNat addresses.length))) 8 [0, 0, 0, 0]
  pure (header ++ addresses.flatMap (localRecord qtype))

/-! ## Names on the wire -/

def ValidLabel (label : Str) : Prop := label ≠ [] ∧ Str.len label ≤ 63

instance (label : Str) : Decidable (ValidLabel label) := inferInstanceAs (Decidable (_ ∧ _))

def wireLabels (labels : List Str) : Bytes :=
  labels.flatMap fun label => UInt8.ofNat (Str.len label) :: Str.asBytes label

def wireName (labels : List Str) : Bytes := wireLabels labels ++ [0]

theorem wireName_cons_length (label : Str) (labels : List Str) :
    (wireName (label :: labels)).length = 1 + (Str.len label + (wireName labels).length) := by
  simp only [wireName, wireLabels, flatMap_cons, length_append, length_cons, Str.asBytes_length]
  omega

theorem length_lt_wireName (labels : List Str) : labels.length < (wireName labels).length := by
  induction labels with
  | nil => exact Nat.one_pos
  | cons label labels ih =>
    rw [wireName_cons_length, length_cons]
    omega

/-- The labels of a name that is written down. -/
def labelsOf (name : Str) : List Str :=
  if Str.trimEndMatches '.' name = [] then [] else Str.split '.' (Str.trimEndMatches '.' name)

theorem labelBytes_ok_iff {invalid : Failure} : ∀ {labels : List Str} {bs : Bytes},
    labelBytes invalid labels = .ok bs ↔ (∀ l ∈ labels, ValidLabel l) ∧ bs = wireLabels labels
  | [], bs => by
    rw [labelBytes]
    exact ⟨fun h => ⟨nofun, (Except.ok.inj h).symm⟩, fun h => congrArg Except.ok h.2.symm⟩
  | label :: labels, bs => by
    rw [labelBytes, forall_mem_cons]
    by_cases hlabel : label = [] ∨ 63 < Str.len label
    · rw [if_pos hlabel]
      refine ⟨nofun, fun h => absurd h.1.1 ?_⟩
      rintro ⟨hne, hle⟩
      exact hlabel.elim hne (Nat.not_lt.mpr hle)
    · have hvalid : ValidLabel label := ⟨fun h => hlabel (.inl h), Nat.not_lt.mp fun h => hlabel (.inr h)⟩
      rw [if_neg hlabel, bind_ok_iff]
      constructor
      · rintro ⟨more, hmore, hbs⟩
        obtain ⟨hvalids, rfl⟩ := labelBytes_ok_iff.mp hmore
        exact ⟨⟨hvalid, hvalids⟩, (Except.ok.inj hbs).symm⟩
      · rintro ⟨⟨-, hvalids⟩, rfl⟩
        exact ⟨_, labelBytes_ok_iff.mpr ⟨hvalids, rfl⟩, rfl⟩

theorem encodeName_ok_iff {name : Str} {bs : Bytes} :
    encodeName name = .ok bs ↔ (∀ l ∈ labelsOf name, ValidLabel l) ∧ bs = wireName (labelsOf name) := by
  rw [encodeName, labelsOf]
  split
  · exact ⟨fun h => ⟨nofun, (Except.ok.inj h).symm⟩, fun h => congrArg Except.ok h.2.symm⟩
  · rw [bind_ok_iff]
    constructor
    · rintro ⟨labels, hlabels, hbs⟩
      obtain ⟨hvalids, rfl⟩ := labelBytes_ok_iff.mp hlabels
      exact ⟨hvalids, (Except.ok.inj hbs).symm⟩
    · rintro ⟨hvalids, rfl⟩
      exact ⟨_, labelBytes_ok_iff.mpr ⟨hvalids, rfl⟩, rfl⟩

theorem ValidLabel.asBytes_length {label : Str} (h : ValidLabel label) :
    1 ≤ (Str.asBytes label).length ∧ (Str.asBytes label).length ≤ 63 := by
  refine ⟨length_pos_iff.mpr fun hnil => h.1 (Str.asBytes_injective hnil), ?_⟩
  rw [Str.asBytes_length]
  exact h.2

theorem ValidLabel.length_byte {label : Str} (h : ValidLabel label) :
    UInt8.ofNat (Str.len label) ≠ 0 ∧ UInt8.ofNat (Str.len label) &&& 0xc0 = 0 ∧ ¬ 63 < UInt8.ofNat (Str.len label) ∧
      (UInt8.ofNat (Str.len label)).toNat = Str.len label := by
  have hbytes := h.asBytes_length
  rw [Str.asBytes_length] at hbytes
  exact Dns.length_byte hbytes.1 hbytes.2

theorem wireName_eq (labels : List Str) :
    wireName labels = encodedLabels (labels.map Str.asBytes) ++ NameEnd.root.bytes := by
  simp [wireName, wireLabels, encodedLabels, NameEnd.bytes, flatMap_map, Str.asBytes_length]

/-- What the loop over the labels of a question has read. -/
theorem questionLabels_ok {request : Bytes} : ∀ {bound position q : Nat} {labels : List Str},
    questionLabels request bound position = .ok (labels, q) →
      (∀ l ∈ labels, ValidLabel l) ∧ position + (wireName labels).length = q ∧ q ≤ request.length ∧
        request.drop position = wireName labels ++ request.drop q
  | 0, _, _, _, h => by cases h
  | bound + 1, position, q, labels, h => by
    rw [questionLabels] at h
    split at h
    · cases h
    next length hlength =>
    obtain ⟨hlt, rfl⟩ := List.getElem?_eq_some_iff.mp hlength
    split at h
    · next hzero =>
      cases h
      refine ⟨nofun, rfl, hlt, ?_⟩
      rw [drop_eq_getElem_cons hlt, hzero]
      rfl
    split at h
    · cases h
    next hzero hsmall =>
    split at h
    · cases h
    next hend =>
    obtain ⟨label, hlabel, h⟩ := bind_ok_iff.mp h
    obtain ⟨⟨rest, q'⟩, hrest, h⟩ := bind_ok_iff.mp h
    cases h
    obtain ⟨hvalid, hq, hle, hdrop⟩ := questionLabels_ok hrest
    have hbytes := Str.asBytes_of_fromUtf8 (okOr_ok_iff.mp hlabel)
    have hlen : Str.len label = request[position].toNat := by
      rw [← Str.asBytes_length, hbytes, length_take, length_drop]
      omega
    have hbyte : UInt8.ofNat (Str.len label) = request[position] := by rw [hlen, UInt8.ofNat_toNat]
    have hpos : request[position].toNat ≠ 0 := fun h0 => hzero (UInt8.toNat_inj.mp h0)
    refine ⟨forall_mem_cons.mpr ⟨⟨?_, ?_⟩, hvalid⟩, ?_, hle, ?_⟩
    · rintro rfl
      exact hpos hlen.symm
    · rw [hlen]
      exact Nat.not_lt.mp fun hlt' => hsmall (UInt8.lt_iff_toNat_lt.mpr hlt')
    · rw [← hq, wireName_cons_length, hlen]
      omega
    grind [drop_eq_getElem_cons, take_append_drop, drop_drop, wireName, wireLabels]

theorem questionLabels_wireName {request : Bytes} {labels : List Str} (h : ∀ l ∈ labels, ValidLabel l) {position : Nat}
    {rest : Bytes} (hdrop : request.drop position = wireName labels ++ rest) {bound : Nat}
    (hbound : labels.length < bound) :
    questionLabels request bound position = .ok (labels, position + (wireName labels).length) := by
  induction labels generalizing position bound with
  | nil =>
    obtain ⟨bound, rfl⟩ := Nat.exists_eq_succ_of_ne_zero (Nat.ne_of_gt hbound)
    have hget : request[position]? = some 0 := by
      rw [← head?_drop, hdrop]
      rfl
    rw [questionLabels, hget]
    rfl
  | cons label labels ih =>
    obtain ⟨bound, rfl⟩ := Nat.exists_eq_succ_of_ne_zero (Nat.ne_of_gt (Nat.zero_lt_of_lt hbound))
    obtain ⟨hlabel, hlabels⟩ := forall_mem_cons.mp h
    obtain ⟨hzero, -, hsmall, hnat⟩ := hlabel.length_byte
    have hwire : request.drop position =
        UInt8.ofNat (Str.len label) :: (Str.asBytes label ++ (wireName labels ++ rest)) := by
      rw [hdrop]
      simp [wireName, wireLabels]
    have hget : request[position]? = some (UInt8.ofNat (Str.len label)) := by
      rw [← head?_drop, hwire]
      rfl
    have hnext : request.drop (position + 1) = Str.asBytes label ++ (wireName labels ++ rest) := by
      rw [← drop_drop, hwire, drop_one, tail_cons]
    have hlong : ¬ request.length < position + 1 + Str.len label := by
      have hlength := congrArg List.length hnext
      simp only [length_drop, length_append, Str.asBytes_length, wireName, length_cons] at hlength
      omega
    have hrest : request.drop (position + 1 + Str.len label) = wireName labels ++ rest := by
      rw [← drop_drop, hnext, ← Str.asBytes_length, drop_left]
    rw [questionLabels, hget]
    simp only [hzero, if_false, hsmall, hnat, if_neg hlong, hnext]
    rw [← Str.asBytes_length, take_left, Str.fromUtf8_asBytes, Str.asBytes_length, ih hlabels hrest (by
      simpa using hbound), wireName_cons_length, Nat.add_assoc, Nat.add_assoc]
    rfl

/-- What `parse_question` accepts: a question behind the header, which counts at least one. -/
theorem parseQuestion_ok_iff {request : Bytes} {q : Question} : parseQuestion request = .ok q ↔
      ∃ (questions : UInt16) (labels : List Str) (rest : Bytes), u16At request 4 = .ok questions ∧ questions ≠ 0 ∧
        (∀ l ∈ labels, ValidLabel l) ∧ 12 ≤ request.length ∧ request.drop 12 = wireName labels ++ rest ∧
        q.questionEnd = 12 + (wireName labels).length + 4 ∧ q.questionEnd ≤ request.length ∧
        u16At request (12 + (wireName labels).length) = .ok q.qtype ∧
        q.name = normalize (List.intercalate ['.'] labels) := by
  rw [parseQuestion]
  simp only [bind_ok_iff, bailIf_ok_iff, Nat.not_lt]
  constructor
  · rintro ⟨-, hheader, questions, hquestions, -, hsome, ⟨labels, position⟩, hlabels, -, hfields, qtype, hqtype, hq⟩
    obtain ⟨hvalid, rfl, -, hdrop⟩ := questionLabels_ok hlabels
    cases hq
    grind
  · rintro ⟨questions, labels, rest, hquestions, hsome, hvalid, hheader, hdrop, hend, hle, hqtype, hname⟩
    have hbound : labels.length < request.length := by
      have := length_lt_wireName labels
      omega
    refine ⟨(), hheader, questions, hquestions, (), hsome, _, questionLabels_wireName hvalid hdrop hbound, (), by omega,
      q.qtype, hqtype, ?_⟩
    rw [← hname, ← hend]
    rfl

theorem parseQuestion_congr {m m' : Bytes} {q : Question} (h : parseQuestion m = .ok q)
    (hle : q.questionEnd ≤ m'.length)
    (hagree : ∀ i < q.questionEnd, 4 ≤ i ∧ i < 6 ∨ 12 ≤ i → m'[i]? = m[i]?) : parseQuestion m' = .ok q := by
  obtain ⟨questions, labels, rest, hquestions, hsome, hvalid, hheader, hdrop, hend, hle', hqtype, hname⟩ :=
    parseQuestion_ok_iff.mp h
  refine parseQuestion_ok_iff.mpr
    ⟨questions, labels, m'.drop (12 + (wireName labels).length), ?_, hsome, hvalid, by omega, ?_,
    hend, hle, ?_, hname⟩
  · rw [u16At_congr fun j hj hj' => hagree j (by omega) (by omega)]
    exact hquestions
  · have hsame : (m'.drop 12).take (wireName labels).length = (m.drop 12).take (wireName labels).length :=
      take_drop_congr fun j hj hj' => hagree j (by omega) (by omega)
    rw [hdrop, take_left] at hsame
    conv_lhs => rw [← take_append_drop (wireName labels).length (m'.drop 12), hsame, drop_drop]
  grind [u16At_congr]

/-- A message with this one question. -/
def Asks (message : Bytes) (name : Str) (qtype : UInt16) : Prop :=
  u16At message 4 = .ok 1 ∧ ∃ q, parseQuestion message = .ok q ∧ q.name = name ∧ q.qtype = qtype

/-! ## Records -/

section
variable {b rest : Bytes} {p : Nat}

theorem skipName_wireName {labels : List Str} (hvalid : ∀ l ∈ labels, ValidLabel l)
    (h : b.drop p = wireName labels ++ rest) :
    skipName b p = if labels.length ≤ 127 then .ok (p + (wireName labels).length)
      else .error (.message "invalid DNS name") := by
  rw [wireName_eq, append_assoc] at h
  have hskip := skipLabels_of_drop (forall_mem_map.mpr fun l hl => (hvalid l hl).asBytes_length) 127 h
  rwa [length_map, ← wireName_eq] at hskip

theorem readAnswers_succ {qtype kind length : UInt16} {recordTtl : UInt32} {q : Nat} (hname : skipName b p = .ok q)
    (hkind : u16At b q = .ok kind) (httl : u32At b (q + 4) = .ok recordTtl) (hlength : u16At b (q + 8) = .ok length)
    (hend : q + 10 + length.toNat ≤ b.length) (answers : Nat) (out : List IpAddr) (t : UInt32) :
    readAnswers b qtype (answers + 1) p out t = readAnswers b qtype answers (q + 10 + length.toNat)
        (if kind = qtype then out ++ (recordAddress kind ((b.drop (q + 10)).take length.toNat)).toList else out)
        (if kind = qtype then minTtl t recordTtl else t) := by
  have hfixed : ¬ b.length < q + 10 := by omega
  rw [readAnswers]
  simp only [bind, Except.bind, bailIf, hname, if_neg hfixed, hkind, httl, hlength, if_neg (Nat.not_lt.mpr hend),
    slice_of_le (Nat.le_add_right (q + 10) _) hend, Nat.add_sub_cancel_left]
  split <;> rfl

theorem readAnswers_record {labels : List Str} (hvalid : ∀ l ∈ labels, ValidLabel l) {kind : UInt16} {ttl : UInt32}
    {rdata : Bytes} (hfits : rdata.length < 2 ^ 16)
    (h : b.drop p = wireName labels ++ (recordTail kind 1 ttl rdata ++ rest))
    (qtype : UInt16) (answers : Nat) (out : List IpAddr) (t : UInt32) : readAnswers b qtype (answers + 1) p out t =
      if labels.length ≤ 127 then
        readAnswers b qtype answers (p + (wireName labels ++ recordTail kind 1 ttl rdata).length)
          (if kind = qtype then out ++ (recordAddress kind rdata).toList else out)
          (if kind = qtype then minTtl t ttl else t)
      else .error (.message "invalid DNS name") := by
  have hname := skipName_wireName hvalid h
  split at hname
  · next hlabels =>
    have hq := drop_of_append h
    have hnext : p + (wireName labels ++ recordTail kind 1 ttl rdata).length =
        p + (wireName labels).length + 10 + rdata.length := by
      simp only [recordTail, length_append, beU16_length, beU32_length]
      omega
    rw [hnext, if_pos hlabels]
    generalize p + (wireName labels).length = q at hname hq ⊢
    obtain ⟨hkind, httl, hlen, hnat, hend, hrdata⟩ := recordTail_of_drop hfits hq
    have hdata : (b.drop (q + 10)).take rdata.length = rdata := by rw [hrdata, take_left]
    rw [readAnswers_succ hname hkind httl hlen (by rw [hnat]; exact hend), hnat, hdata]
  · next hlabels =>
    rw [readAnswers, hname, if_neg hlabels]
    rfl

end

section
variable {b : Bytes} {qtype : UInt16} {found : List IpAddr} {id : UInt16}

theorem answersOf_ok_iff : (∃ ttl, answersOf qtype b = .ok (found, ttl)) ↔
      ∃ questions answers p, u16At b 4 = .ok questions ∧ u16At b 6 = .ok answers ∧
        skipQuestions b questions.toNat 12 = .ok p ∧
        ∃ ttl, readAnswers b qtype answers.toNat p [] 0xffffffff = .ok (found, ttl) := by
  simp only [answersOf, bind_ok_iff]
  constructor
  · rintro ⟨ttl, questions, hquestions, answers, hanswers, p, hp, ⟨out, t⟩, hread, hresult⟩
    cases hresult
    exact ⟨questions, answers, p, hquestions, hanswers, hp, t, hread⟩
  · rintro ⟨questions, answers, p, hquestions, hanswers, hp, t, hread⟩
    exact ⟨_, questions, hquestions, answers, hanswers, p, hp, (found, t), hread, rfl⟩

theorem validateResponse_ok {response : Bytes} (h : validateResponse id response = .ok ()) :
    12 ≤ response.length := by
  simp_all [validateResponse, bind_ok_iff, bailIf_ok_iff]

/-- `parse_response` checks the header before it looks at the answers. -/
theorem parseResponse_ok_iff {result : List IpAddr × UInt32} : parseResponse id qtype b = .ok result ↔
      12 ≤ b.length ∧ u16At b 0 = .ok id ∧
        (∃ flags, u16At b 2 = .ok flags ∧ flags &&& 0x8000 ≠ 0 ∧ flags &&& 15 = 0) ∧
          answersOf qtype b = .ok result := by
  rw [parseResponse]
  simp only [bind_ok_iff, bailIf_ok_iff, Nat.not_lt, not_or, not_not]
  grind

end

def queryForA : Bytes := [0, 7, 1, 0, 0, 1, 0, 0, 0, 0, 0, 0, 1, 97, 0, 0, 1, 0, 1]

end Xhttp.Dns
