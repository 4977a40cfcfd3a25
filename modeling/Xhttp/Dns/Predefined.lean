import Xhttp.Dns.Resolver

/- The two readings of a predefined rule: `lookup_type` takes the addresses from the configured records, and `exchange`
   answers with a message that is built from the same records. `predefined_agree` says for which records and response
   codes the lookup succeeds exactly if `parse_response` accepts the message, with the same addresses. -/
namespace Xhttp.Dns
open Xhttp.Lib Xhttp.Routing Vless List Checked

/-! ## Records -/

/-- The data of an address record has the length of an address. -/
def PredefinedRecord.WellFormed (record : PredefinedRecord) : Prop :=
  (record.kind = 1 → record.rdata.length = 4) ∧ (record.kind = 28 → record.rdata.length = 16)

def PredefinedRecord.addresses (qtype : UInt16) (record : PredefinedRecord) : List IpAddr :=
  if record.kind = qtype then (recordAddress qtype record.rdata).toList else []

variable {rdata : Bytes} {record : PredefinedRecord}
  {ws : List (Str × PredefinedRecord)} {a : IpAddr} {parsers : Parsers} {qtype : UInt16} {q : Question}
  {id : UInt16} {m : Bytes}

theorem addressRdata_length {kind : String} {ipv4 : Bool} {tokens : List Str}
    (h : addressRdata parsers kind ipv4 tokens = .ok rdata) : rdata.length = if ipv4 then 4 else 16 := by
  rw [addressRdata] at h
  simp only [bind_ok_iff, bailIf_ok_iff, not_not] at h
  obtain ⟨-, -, address, -, -, hfamily, hrdata⟩ := h
  cases hrdata
  rw [address.octets_length, hfamily]

theorem parseDnsRecord_wellFormed {text : Str} (h : parseDnsRecord parsers text = .ok record) : record.WellFormed := by
  rw [parseDnsRecord] at h
  simp only [bind_ok_iff, okOr_ok_iff] at h
  obtain ⟨_, -, _, -, _, -, -, -, ⟨kind, tokens⟩, -, ⟨number, data⟩, hlookup, rdata, hrdata, hrecord⟩ := h
  cases hrecord
  have htype : (kind, number, data) ∈ recordTypes parsers := by
    obtain ⟨before, after, htable, -⟩ := lookup_eq_some_iff.mp hlookup
    rw [htable]
    exact mem_append_right _ mem_cons_self
  simp only [recordTypes, mem_cons, Prod.mk.injEq, not_mem_nil, or_false] at htype
  constructor
  · rintro rfl
    obtain ⟨-, rfl⟩ : kind = "A" ∧ data = addressRdata parsers "A" true := by simpa using htype
    exact addressRdata_length hrdata
  · rintro rfl
    obtain ⟨-, rfl⟩ : kind = "AAAA" ∧ data = addressRdata parsers "AAAA" false := by simpa using htype
    exact addressRdata_length hrdata

theorem PredefinedRecord.WellFormed.exists_address (h : record.WellFormed)
    (hqtype : qtype = 1 ∨ qtype = 28) (hkind : record.kind = qtype) :
    ∃ a, recordAddress qtype record.rdata = some a := by
  rcases hqtype with rfl | rfl
  · obtain ⟨v, hv⟩ := vectorOf_of_length (h.1 hkind)
    rw [recordAddress, if_pos rfl, hv]
    exact ⟨_, rfl⟩
  · obtain ⟨v, hv⟩ := vectorOf_of_length (h.2 hkind)
    rw [recordAddress, if_neg (by decide), if_pos rfl, hv]
    exact ⟨_, rfl⟩

/-! ## The lookup -/

section
theorem lookupAddress_eq (h : record.WellFormed) (hqtype : qtype = 1 ∨ qtype = 28) :
    lookupAddress qtype record = .ok (record.addresses qtype) := by
  rw [lookupAddress, PredefinedRecord.addresses]
  by_cases hkind : record.kind = qtype
  · rw [if_pos hkind]
    rcases hqtype with rfl | rfl
    · rw [if_pos ⟨rfl, hkind⟩]
    · obtain ⟨a, ha⟩ := h.exists_address (.inr rfl) hkind
      rw [if_neg (by simp), if_pos ⟨rfl, hkind⟩, ha]
      rfl
  grind

theorem predefinedLookup_eq {value : Option JsonValue} {rcode : UInt8} {texts : List Str}
    {records : List PredefinedRecord}
    (hrcode : parseRcode value = .ok rcode) (hrecords : texts.mapM (parseDnsRecord parsers) = .ok records)
    (hqtype : qtype = 1 ∨ qtype = 28) : predefinedLookup parsers qtype value texts =
      if rcode = 0 then .ok (sortDedup (records.flatMap (PredefinedRecord.addresses qtype)))
      else .error (.message ("DNS lookup rejected by rule with rcode " ++ toString rcode.toNat)) := by
  have haddresses : (texts.mapM fun text => do
      let record ← parseDnsRecord parsers text
      lookupAddress qtype record) = .ok (records.map (PredefinedRecord.addresses qtype)) := by
    rw [mapM_ok_iff, forall₂_map_right_iff]
    refine (mapM_ok_iff.mp hrecords).imp fun text record hrecord => ?_
    rw [hrecord]
    exact lookupAddress_eq (parseDnsRecord_wellFormed hrecord) hqtype
  rw [predefinedLookup, hrcode, haddresses]
  by_cases hzero : rcode = 0
  · rw [if_pos hzero, hzero, flatMap_def]
    rfl
  · rw [if_neg hzero]
    show (bailIf (rcode ≠ 0) _ >>= fun _ => _) = _
    rw [bailIf, if_pos hzero]
    rfl

end

/-! ## The message -/

/-- The records that are answered, with their owners in the response. -/
def written (queryName : Str) (records : List PredefinedRecord) : List (Str × PredefinedRecord) :=
  records.filterMap fun record => (responseOwner queryName record.owner).map (·, record)

/-- The owner fits on the wire. -/
def OwnerFits (w : Str × PredefinedRecord) : Prop := ∀ l ∈ labelsOf w.1, ValidLabel l

instance (w : Str × PredefinedRecord) : Decidable (OwnerFits w) :=
  inferInstanceAs (Decidable (∀ l ∈ labelsOf w.1, ValidLabel l))

def writtenBytes (ws : List (Str × PredefinedRecord)) : Bytes :=
  ws.flatMap fun w => wireName (labelsOf w.1) ++ recordTail w.2.kind 1 w.2.ttl w.2.rdata

theorem written_cons (queryName : Str) (record : PredefinedRecord) (records : List PredefinedRecord) :
    written queryName (record :: records) = match responseOwner queryName record.owner with
      | none => written queryName records
      | some owner => (owner, record) :: written queryName records := by
  rw [written, filterMap_cons]
  cases responseOwner queryName record.owner <;> rfl

theorem appendRecords_ok_iff {queryName : Str} {records : List PredefinedRecord} {response : Bytes} {count : Nat}
    {result : Bytes × Nat} (hcount : count < 2 ^ 16) : appendRecords queryName records response count = .ok result ↔
      (∀ w ∈ written queryName records, OwnerFits w) ∧ count + (written queryName records).length < 2 ^ 16 ∧
        result = (response ++ writtenBytes (written queryName records),
          count + (written queryName records).length) := by
  induction records generalizing response count with
  | nil =>
    rw [appendRecords, written, filterMap_nil, writtenBytes, flatMap_nil, append_nil]
    grind
  | cons record records ih =>
    rw [appendRecords, written_cons]
    cases responseOwner queryName record.owner with
    | none => exact ih hcount
    | some owner =>
      have hnext :
          ∀ ws : List (Str × PredefinedRecord), count + ((owner, record) :: ws).length = count + 1 + ws.length := by
        intro ws
        rw [length_cons]
        omega
      have hbytes : ∀ ws : List (Str × PredefinedRecord), response ++ writtenBytes ((owner, record) :: ws) =
          response ++ (wireName (labelsOf owner) ++ recordTail record.kind 1 record.ttl record.rdata) ++
            writtenBytes ws := by
        intro ws
        rw [writtenBytes, flatMap_cons, ← append_assoc]
        rfl
      simp only [bind_ok_iff, forall_mem_cons, hnext, hbytes]
      constructor
      · rintro ⟨name, hname, hrest⟩
        obtain ⟨hfits, rfl⟩ := encodeName_ok_iff.mp hname
        split at hrest
        · next hlt =>
          obtain ⟨hall, hlen, rfl⟩ := (ih hlt).mp hrest
          exact ⟨⟨hfits, hall⟩, hlen, rfl⟩
        · cases hrest
      · rintro ⟨⟨hfits, hall⟩, hlen, rfl⟩
        have hlt : count + 1 < 2 ^ 16 := by omega
        refine ⟨_, encodeName_ok_iff.mpr ⟨hfits, rfl⟩, ?_⟩
        rw [if_pos hlt]
        exact (ih hlt).mpr ⟨hall, hlen, rfl⟩

/-- The records that were written are read back as answers, if no owner has more than 127 labels. -/
theorem readAnswers_written (howner : ∀ w ∈ ws, OwnerFits w)
    (hfits : ∀ w ∈ ws, w.2.rdata.length < 2 ^ 16) {b rest : Bytes} {p : Nat} (h : b.drop p = writtenBytes ws ++ rest)
    (qtype : UInt16) (out found : List IpAddr) (t : UInt32) :
    (∃ ttl, readAnswers b qtype ws.length p out t = .ok (found, ttl)) ↔
      (∀ w ∈ ws, (labelsOf w.1).length ≤ 127) ∧ found = out ++ ws.flatMap fun w => w.2.addresses qtype := by
  induction ws generalizing p out t with
  | nil =>
    rw [flatMap_nil, append_nil]
    constructor
    · rintro ⟨ttl, h⟩
      cases h
      exact ⟨nofun, rfl⟩
    · rintro ⟨-, rfl⟩
      exact ⟨t, rfl⟩
  | cons w ws ih =>
    obtain ⟨howner, howners⟩ := forall_mem_cons.mp howner
    obtain ⟨hfit, hfits⟩ := forall_mem_cons.mp hfits
    have hrecord : b.drop p =
        wireName (labelsOf w.1) ++ (recordTail w.2.kind 1 w.2.ttl w.2.rdata ++ (writtenBytes ws ++ rest)) := by
      rw [h, writtenBytes, flatMap_cons]
      simp only [append_assoc]
      rfl
    have hnext : b.drop (p + (wireName (labelsOf w.1) ++ recordTail w.2.kind 1 w.2.ttl w.2.rdata).length) =
        writtenBytes ws ++ rest := drop_of_append (by rw [hrecord, append_assoc])
    have haddresses : (if w.2.kind = qtype then out ++ (recordAddress w.2.kind w.2.rdata).toList else out) =
        out ++ w.2.addresses qtype := by
      rw [PredefinedRecord.addresses]
      split
      · next hkind => rw [hkind]
      · rw [append_nil]
    rw [length_cons, readAnswers_record howner hfit hrecord, haddresses, forall_mem_cons, flatMap_cons,
      ← append_assoc]
    split
    · next hshort => rw [ih howners hfits hnext, and_iff_right hshort]
    · next hlong =>
      refine ⟨nofun, fun hall => absurd hall.1.1 hlong⟩

def predefinedBytes (request : Bytes) (questionEnd : Nat) (rcode : UInt8)
    (ws : List (Str × PredefinedRecord)) : Bytes :=
  overwrite
    (overwrite (overwrite (request.take questionEnd) 2 [0x80 ||| 0x04 ||| 0x01, 0x80 ||| (rcode &&& 0x0f)]) 6
      [0, 0, 0, 0, 0, 0] ++ writtenBytes ws)
    6 (beU16 (UInt16.ofNat ws.length))

section
variable {request : Bytes} {rcode : UInt8}

theorem predefinedResponse_ok_iff (hq : parseQuestion request = .ok q) {records : List PredefinedRecord} :
    predefinedResponse request q.questionEnd rcode records = .ok m ↔
      (∀ w ∈ written q.name records, OwnerFits w) ∧ (written q.name records).length < 2 ^ 16 ∧
        m = predefinedBytes request q.questionEnd rcode (written q.name records) := by
  have hend : q.questionEnd ≤ request.length := by
    obtain ⟨-, -, -, -, -, -, -, -, -, hend, -⟩ := parseQuestion_ok_iff.mp hq
    exact hend
  rw [predefinedResponse, hq, echo, if_pos hend]
  show (appendRecords q.name records _ 0 >>= _) = .ok m ↔ _
  rw [bind_ok_iff]
  constructor
  · rintro ⟨result, hresult, hm⟩
    obtain ⟨hfits, hlen, rfl⟩ := (appendRecords_ok_iff (by decide)).mp hresult
    rw [Nat.zero_add] at hlen hm
    exact ⟨hfits, hlen, (Except.ok.inj hm).symm⟩
  · rintro ⟨hfits, hlen, rfl⟩
    refine ⟨_, (appendRecords_ok_iff (by decide)).mpr ⟨hfits, by omega, rfl⟩, ?_⟩
    rw [Nat.zero_add]
    rfl

theorem predefinedBytes_eq (hq : parseQuestion request = .ok q) (rcode : UInt8) (ws : List (Str × PredefinedRecord)) :
    ∃ b₀ b₁ b₂ b₃ b₄ b₅ b₆ b₇ b₈ b₉ b₁₀ b₁₁ tail,
      request = b₀ :: b₁ :: b₂ :: b₃ :: b₄ :: b₅ :: b₆ :: b₇ :: b₈ :: b₉ :: b₁₀ :: b₁₁ :: tail ∧
      predefinedBytes request q.questionEnd rcode ws =
        b₀ :: b₁ :: (0x80 ||| 0x04 ||| 0x01) :: (0x80 ||| (rcode &&& 0x0f)) :: b₄ :: b₅ ::
          (beU16 (UInt16.ofNat ws.length) ++
            (0 :: 0 :: 0 :: 0 :: (tail.take (q.questionEnd - 12) ++ writtenBytes ws))) := by
  obtain ⟨-, labels, -, -, -, -, hheader, -, hend, -⟩ := parseQuestion_ok_iff.mp hq
  obtain ⟨k, hk⟩ : ∃ k, q.questionEnd = k + 12 := ⟨q.questionEnd - 12, by omega⟩
  match request, hheader with
  | b₀ :: b₁ :: b₂ :: b₃ :: b₄ :: b₅ :: b₆ :: b₇ :: b₈ :: b₉ :: b₁₀ :: b₁₁ :: tail, _ =>
    refine ⟨b₀, b₁, b₂, b₃, b₄, b₅, b₆, b₇, b₈, b₉, b₁₀, b₁₁, tail, rfl, ?_⟩
    rw [hk, Nat.add_sub_cancel]
    rfl

theorem flags_of_rcode (rcode : UInt8) : ofBeU16 (0x80 ||| 0x04 ||| 0x01) (0x80 ||| (rcode &&& 0x0f)) &&& 0x8000 ≠ 0 ∧
      (ofBeU16 (0x80 ||| 0x04 ||| 0x01) (0x80 ||| (rcode &&& 0x0f)) &&& 15 = 0 ↔ rcode &&& 0x0f = 0) := by
  have hall : ∀ n < 16, ofBeU16 (0x80 ||| 0x04 ||| 0x01) (0x80 ||| UInt8.ofNat n) &&& 0x8000 ≠ 0 ∧
      (ofBeU16 (0x80 ||| 0x04 ||| 0x01) (0x80 ||| UInt8.ofNat n) &&& 15 = 0 ↔ UInt8.ofNat n = 0) := by
    decide
  have hlow : (rcode &&& 0x0f).toNat < 16 := by
    exact Nat.lt_succ_of_le Nat.and_le_right
  have h := hall _ hlow
  rwa [UInt8.ofNat_toNat] at h

theorem parseResponse_predefined (hq : parseQuestion request = .ok q) (hone : u16At request 4 = .ok 1)
    (hid : dnsId request = .ok id) (howner : ∀ w ∈ ws, OwnerFits w)
    (hfits : ∀ w ∈ ws, w.2.rdata.length < 2 ^ 16) (hlen : ws.length < 2 ^ 16) (qtype : UInt16) (found : List IpAddr) :
    (∃ ttl, parseResponse id qtype (predefinedBytes request q.questionEnd rcode ws) = .ok (found, ttl)) ↔
      rcode &&& 0x0f = 0 ∧ (∃ p, skipName request 12 = .ok p) ∧ (∀ w ∈ ws, (labelsOf w.1).length ≤ 127) ∧
        found = ws.flatMap fun w => w.2.addresses qtype := by
  obtain ⟨-, labels, rest, -, -, hvalid, -, hdrop, hend, hle, -, -⟩ := parseQuestion_ok_iff.mp hq
  obtain ⟨b₀, b₁, b₂, b₃, b₄, b₅, b₆, b₇, b₈, b₉, b₁₀, b₁₁, tail, rfl, hm⟩ := predefinedBytes_eq hq rcode ws
  have htail : tail = wireName labels ++ rest := hdrop
  have hrest : 4 ≤ rest.length := by
    rw [htail, hend] at hle
    simp only [length_cons, length_append] at hle
    omega
  have hskip :
      (∃ p, skipName (b₀ :: b₁ :: b₂ :: b₃ :: b₄ :: b₅ :: b₆ :: b₇ :: b₈ :: b₉ :: b₁₀ :: b₁₁ :: tail) 12 = .ok p) ↔
        labels.length ≤ 127 := by
    rw [skipName_wireName hvalid hdrop]
    split
    · next hshort => exact iff_of_true ⟨_, rfl⟩ hshort
    · next hlong => exact iff_of_false (by rintro ⟨_, ⟨⟩⟩) hlong
  rw [hm, hskip]
  have hecho : tail.take (q.questionEnd - 12) = wireName labels ++ rest.take 4 := by
    rw [htail, hend, show 12 + (wireName labels).length + 4 - 12 = (wireName labels).length + 4 by omega,
      take_length_add_append]
  generalize hm' : b₀ :: b₁ :: (0x80 ||| 0x04 ||| 0x01) :: (0x80 ||| (rcode &&& 0x0f)) :: b₄ :: b₅ ::
    (beU16 (UInt16.ofNat ws.length) ++ (0 :: 0 :: 0 :: 0 :: (tail.take (q.questionEnd - 12) ++ writtenBytes ws))) = m
  have hcount : u16At m 6 = .ok (UInt16.ofNat ws.length) := u16At_of_drop (by rw [← hm']; rfl)
  have hquestion : m.drop 12 = wireName labels ++ (rest.take 4 ++ writtenBytes ws) := by
    rw [← hm', hecho, ← append_assoc]
    rfl
  have hrecords : m.drop q.questionEnd = writtenBytes ws ++ [] := by
    have hfields := drop_of_append hquestion
    have hbody := drop_of_append hfields
    rw [length_take, Nat.min_eq_left hrest, ← hend] at hbody
    rw [hbody, append_nil]
  have hquestions : ∀ p, skipQuestions m 1 12 = .ok p ↔ labels.length ≤ 127 ∧ p = q.questionEnd := by
    intro p
    have hle : ¬ m.length < 12 + (wireName labels).length + 4 := by
      have hlength := congrArg List.length hquestion
      simp only [length_drop, length_append, length_take, Nat.min_eq_left hrest] at hlength
      omega
    rw [skipQuestions, skipName_wireName hvalid hquestion, hend]
    split
    · next hshort =>
      show (bailIf _ _ >>= fun _ => Except.ok _) = _ ↔ _
      rw [bailIf, if_neg hle]
      exact ⟨fun h => ⟨hshort, (Except.ok.inj h).symm⟩, fun h => congrArg Except.ok h.2.symm⟩
    · next hlong => exact iff_of_false (by rintro ⟨⟩) fun h => hlong h.1
  have hread := readAnswers_written howner hfits hrecords qtype [] found 0xffffffff
  rw [nil_append] at hread
  have hnat : (UInt16.ofNat ws.length).toNat = ws.length := UInt16.toNat_ofNat_of_lt' hlen
  have hfour : u16At m 4 = .ok 1 := by
    rw [← hone, ← hm']
    rfl
  have hanswers : (∃ ttl, answersOf qtype m = .ok (found, ttl)) ↔ labels.length ≤ 127 ∧
      (∀ w ∈ ws, (labelsOf w.1).length ≤ 127) ∧ found = ws.flatMap fun w => w.2.addresses qtype := by
    rw [answersOf_ok_iff, ← hread]
    constructor
    · rintro ⟨questions, answers, p, h₄, h₆, hp, hfound⟩
      cases hfour.symm.trans h₄
      grind
    · grind
  obtain ⟨hresponse, hzero⟩ := flags_of_rcode rcode
  have hflags : u16At m 2 = .ok (ofBeU16 (0x80 ||| 0x04 ||| 0x01) (0x80 ||| (rcode &&& 0x0f))) := by
    rw [← hm']
    rfl
  have hmid : u16At m 0 = .ok id := by
    rw [← hid, ← hm']
    rfl
  have hlong : 12 ≤ m.length := by
    have hlength := congrArg List.length hquestion
    have hpos := length_lt_wireName labels
    rw [length_drop, length_append] at hlength
    omega
  rw [← hanswers]
  simp only [parseResponse_ok_iff]
  constructor
  · rintro ⟨ttl, -, -, ⟨flags, h₂, -, hlow⟩, hfound⟩
    rw [← Except.ok.inj (hflags.symm.trans h₂)] at hlow
    exact ⟨hzero.mp hlow, ttl, hfound⟩
  · rintro ⟨hrcode, ttl, hfound⟩
    exact ⟨ttl, hlong, hmid, ⟨_, hflags, hresponse, hzero.mpr hrcode⟩, hfound⟩

end

/-! ## Agreement -/

/-- The message of `exchange` is one that `parse_response` accepts, with these addresses. -/
def Accepts (message : Except Failure (Bytes ⊕ Exchange)) (id qtype : UInt16) (found : List IpAddr) : Prop :=
  ∃ m ttl, message = .ok (.inl m) ∧ parseResponse id qtype m = .ok (found, ttl)

/-- A lookup succeeds exactly if the message of `exchange` is accepted, and then the addresses are the same. -/
def PathsAgree (lookup : Except Failure (List IpAddr ⊕ Lookup)) (message : Except Failure (Bytes ⊕ Exchange))
    (id qtype : UInt16) : Prop :=
  ((∃ addresses, lookup = .ok (.inl addresses)) ↔ ∃ found, Accepts message id qtype found) ∧
    ∀ addresses found, lookup = .ok (.inl addresses) → Accepts message id qtype found → ∀ a, a ∈ addresses ↔ a ∈ found

/-- The message can be built and read: the name of the question and the owners that are answered have at most 127
    labels of 1 to 63 bytes, and at most 65535 records are answered. -/
def Readable (request : Bytes) (ws : List (Str × PredefinedRecord)) : Prop :=
  (∃ p, skipName request 12 = .ok p) ∧ (∀ w ∈ ws, OwnerFits w ∧ (labelsOf w.1).length ≤ 127) ∧ ws.length < 2 ^ 16

/-- The addresses of records that are left out are those of others. -/
def Covered (qtype : UInt16) (records : List PredefinedRecord) (ws : List (Str × PredefinedRecord)) : Prop :=
  ∀ record ∈ records, record.kind = qtype → ∃ w ∈ ws, w.2.kind = qtype ∧ w.2.rdata = record.rdata

/-- The length of the data fits in its field. -/
def DataFits (ws : List (Str × PredefinedRecord)) : Prop := ∀ w ∈ ws, w.2.rdata.length < 2 ^ 16

/-- When the two paths agree on a rule with this response code and these records. -/
def AgreeWhen (rcode : UInt8) (qtype : UInt16) (request : Bytes) (records : List PredefinedRecord)
    (ws : List (Str × PredefinedRecord)) : Prop :=
  (rcode = 0 ∧ DataFits ws ∧ Readable request ws ∧ Covered qtype records ws) ∨
    (rcode ≠ 0 ∧ (rcode &&& 0x0f ≠ 0 ∨ (DataFits ws ∧ ¬ Readable request ws)))

section
variable {items : DnsItems} {request : Bytes} {rcode : UInt8}
  {records : List PredefinedRecord}

variable (hq : parseQuestion request = .ok q)
include hq

theorem predefinedMessage_ok_iff (hrcode : parseRcode items.rcode = .ok rcode)
    (hrecords : items.records.mapM (parseDnsRecord parsers) = .ok records) :
    predefinedMessage parsers items request q.questionEnd = .ok m ↔
      (∀ w ∈ written q.name records, OwnerFits w) ∧ (written q.name records).length < 2 ^ 16 ∧
        m = predefinedBytes request q.questionEnd rcode (written q.name records) := by
  rw [predefinedMessage, hrcode, hrecords]
  exact predefinedResponse_ok_iff hq

theorem not_accepted_of_rcode (hlow : rcode &&& 0x0f ≠ 0)
    (ws : List (Str × PredefinedRecord)) (qtype : UInt16) (result : List IpAddr × UInt32) :
    parseResponse id qtype (predefinedBytes request q.questionEnd rcode ws) ≠ .ok result := by
  obtain ⟨b₀, b₁, b₂, b₃, b₄, b₅, b₆, b₇, b₈, b₉, b₁₀, b₁₁, tail, rfl, hm⟩ := predefinedBytes_eq hq rcode ws
  rw [hm]
  intro h
  obtain ⟨-, -, ⟨flags, hflags, -, hzero⟩, -⟩ := parseResponse_ok_iff.mp h
  rw [← Except.ok.inj ((rfl : u16At _ 2 = .ok _).symm.trans hflags)] at hzero
  exact hlow ((flags_of_rcode rcode).2.mp hzero)

/-- What `parse_response` accepts of the message, if the data of its records fits. -/
theorem accepted_iff (hone : u16At request 4 = .ok 1) (hid : dnsId request = .ok id)
    (hrcode : parseRcode items.rcode = .ok rcode) (hrecords : items.records.mapM (parseDnsRecord parsers) = .ok records)
    (hfits : DataFits (written q.name records)) (found : List IpAddr) :
    Accepts ((predefinedMessage parsers items request q.questionEnd).map .inl) id q.qtype found ↔
      rcode &&& 0x0f = 0 ∧ Readable request (written q.name records) ∧
        found = (written q.name records).flatMap fun w => w.2.addresses q.qtype := by
  constructor
  · rintro ⟨m, ttl, hm, hparse⟩
    obtain ⟨m', hm', heq⟩ : ∃ m', predefinedMessage parsers items request q.questionEnd = .ok m' ∧ m' = m := by
      cases hmessage : predefinedMessage parsers items request q.questionEnd with
      | error e => rw [hmessage] at hm; cases hm
      | ok m' => rw [hmessage] at hm; cases hm; exact ⟨m, rfl, rfl⟩
    subst heq
    obtain ⟨howner, hlen, rfl⟩ := (predefinedMessage_ok_iff hq hrcode hrecords).mp hm'
    obtain ⟨hlow, hskip, hshort, hfound⟩ :=
      (parseResponse_predefined hq hone hid howner hfits hlen q.qtype found).mp ⟨ttl, hparse⟩
    exact ⟨hlow, ⟨hskip, fun w hw => ⟨howner w hw, hshort w hw⟩, hlen⟩, hfound⟩
  · rintro ⟨hlow, ⟨hskip, hall, hlen⟩, hfound⟩
    have howner := fun w hw => (hall w hw).1
    obtain ⟨ttl, hparse⟩ := (parseResponse_predefined hq hone hid howner hfits hlen q.qtype found).mpr
      ⟨hlow, hskip, fun w hw => (hall w hw).2, hfound⟩
    refine ⟨_, ttl, ?_, hparse⟩
    rw [(predefinedMessage_ok_iff hq hrcode hrecords).mpr ⟨howner, hlen, rfl⟩]
    rfl

end

theorem octets_of_recordAddress (h : recordAddress qtype rdata = some a) : a.octets = rdata := by
  unfold recordAddress at h
  split at h
  · obtain ⟨v, hv, rfl⟩ := Option.map_eq_some_iff.mp h
    exact toList_of_vectorOf hv
  · split at h
    · obtain ⟨v, hv, rfl⟩ := Option.map_eq_some_iff.mp h
      exact toList_of_vectorOf hv
    · cases h

theorem mem_addresses :
    a ∈ record.addresses qtype ↔ record.kind = qtype ∧ recordAddress qtype record.rdata = some a := by
  rw [PredefinedRecord.addresses]
  simp_all

/-- The answered records have all the addresses of the rule exactly if those left out are covered. -/
theorem covered_iff (hqtype : qtype = 1 ∨ qtype = 28) {name : Str} {records : List PredefinedRecord}
    (hformed : ∀ record ∈ records, record.WellFormed) : Covered qtype records (written name records) ↔
      ∀ a, a ∈ sortDedup (records.flatMap (PredefinedRecord.addresses qtype)) ↔
        a ∈ (written name records).flatMap fun w => w.2.addresses qtype := by
  simp only [mem_sortDedup, mem_flatMap, mem_addresses]
  constructor
  · intro hcovered a
    constructor
    · rintro ⟨record, hrecord, hkind, ha⟩
      obtain ⟨w, hw, hwkind, hdata⟩ := hcovered record hrecord hkind
      exact ⟨w, hw, hwkind, hdata ▸ ha⟩
    · rintro ⟨w, hw, hkind, ha⟩
      obtain ⟨record, hrecord, hmap⟩ := mem_filterMap.mp hw
      grind [Option.map_eq_some_iff]
  · intro hsame record hrecord hkind
    obtain ⟨a, ha⟩ := (hformed record hrecord).exists_address hqtype hkind
    obtain ⟨w, hw, hwkind, hwa⟩ := (hsame a).mp ⟨record, hrecord, hkind, ha⟩
    exact ⟨w, hw, hwkind, (octets_of_recordAddress hwa).symm.trans (octets_of_recordAddress ha)⟩

section
variable {r : DnsResolver} {crates : DnsCrates} {ruleSets : Option CompiledRuleSetMap} {compiled : CompiledDnsRule}
  {name : Str}

theorem lookupStart_predefined (hgoverns : r.selectRule ruleSets name qtype = some compiled)
    (haction : compiled.own.raw.action = some "predefined".toList) {options : LookupOptions}
    (hserver : options.server = none) :
    r.lookupStart crates.toParsers ruleSets name qtype options =
      (predefinedLookup crates.toParsers qtype compiled.own.raw.rcode compiled.own.raw.records).map .inl := by
  rw [DnsResolver.lookupStart]
  simp only [hserver, if_true, hgoverns, ruleItem, Option.bind_some, haction]
  rfl

theorem exchangeStart_predefined {request : Bytes} (hq : parseQuestion request = .ok q)
    (hid : dnsId request = .ok id) (hgoverns : r.selectRule ruleSets q.name q.qtype = some compiled)
    (haction : compiled.own.raw.action = some "predefined".toList) : r.exchangeStart crates.toParsers ruleSets request =
      (predefinedMessage crates.toParsers compiled.own.raw request q.questionEnd).map .inl := by
  rw [DnsResolver.exchangeStart, hq, hid]
  simp only [bind, Except.bind, hgoverns, ruleItem, Option.bind_some, haction]
  rfl

/-- The two paths agree on every question that a predefined rule governs whose records satisfy the condition; and
    only on those, if the data of its records fits. -/
theorem predefined_agree {items : DnsItems} {rules : List DnsRule}
    (hvalid : validateDnsRule crates true (.mk items rules) = .ok ())
    (hcompile : compileDnsRule crates (.mk items rules) = .ok compiled)
    (haction : items.action = some "predefined".toList)
    (hqtype : qtype = 1 ∨ qtype = 28) (hgoverns : r.selectRule ruleSets name qtype = some compiled)
    {options : LookupOptions} (hserver : options.server = none) {request : Bytes} (hasks : Asks request name qtype)
    {id : UInt16} (hid : dnsId request = .ok id) :
    ∃ rcode records, parseRcode items.rcode = .ok rcode ∧
      items.records.mapM (parseDnsRecord crates.toParsers) = .ok records ∧
      (AgreeWhen rcode qtype request records (written name records) →
        PathsAgree (r.lookupStart crates.toParsers ruleSets name qtype options)
          (r.exchangeStart crates.toParsers ruleSets request) id qtype) ∧
      (DataFits (written name records) →
        PathsAgree (r.lookupStart crates.toParsers ruleSets name qtype options)
          (r.exchangeStart crates.toParsers ruleSets request) id qtype →
        AgreeWhen rcode qtype request records (written name records)) := by
  obtain ⟨rcode, records, hrcode, hrecords⟩ := validateDnsRule_predefined crates hvalid haction
  obtain ⟨hone, q, hq, rfl, rfl⟩ := hasks
  have hraw := compileDnsRule_raw crates hcompile
  rw [← hraw] at haction
  rw [lookupStart_predefined hgoverns haction hserver, exchangeStart_predefined hq hid hgoverns haction, hraw,
    predefinedLookup_eq hrcode hrecords hqtype]
  have hformed : ∀ record ∈ records, record.WellFormed := fun record hrecord => by
    obtain ⟨text, -, htext⟩ := mapM_ok_mem hrecords record hrecord
    exact parseDnsRecord_wellFormed htext
  have hlookup : ∀ addresses, Except.map Sum.inl (if rcode = 0 then
        .ok (sortDedup (records.flatMap (PredefinedRecord.addresses q.qtype)))
      else .error (.message ("DNS lookup rejected by rule with rcode " ++ toString rcode.toNat))) =
        (.ok (.inl addresses) : Except Failure (List IpAddr ⊕ Lookup)) ↔
      rcode = 0 ∧ addresses = sortDedup (records.flatMap (PredefinedRecord.addresses q.qtype)) := by
    intro addresses
    split
    · next hzero => exact ⟨fun h => by cases h; exact ⟨hzero, rfl⟩, fun h => by rw [h.2]; rfl⟩
    · next hne => exact iff_of_false nofun fun h => hne h.1
  have haccepted := accepted_iff hq hone hid hrcode hrecords
  simp only [PathsAgree, hlookup]
  refine ⟨rcode, records, hrcode, hrecords, ?_, ?_⟩
  · rintro (⟨hzero, hfits, hreadable, hcovered⟩ | ⟨hne, hrejected⟩)
    · simp_all [covered_iff]
    · refine ⟨iff_of_false (fun ⟨_, hzero, _⟩ => hne hzero) ?_, fun _ _ h => absurd h.1 hne⟩
      rintro ⟨found, hfound⟩
      rcases hrejected with hlow | ⟨hfits, hunreadable⟩
      · obtain ⟨m, ttl, hm, hparse⟩ := hfound
        cases hmessage : predefinedMessage crates.toParsers items request q.questionEnd with
        | error e => rw [hmessage] at hm; cases hm
        | ok m' =>
          rw [hmessage] at hm
          cases hm
          simp_all [predefinedMessage_ok_iff, not_accepted_of_rcode]
      · exact hunreadable ((haccepted hfits _).mp hfound).2.1
  · rintro hfits ⟨hsucceeds, hsame⟩
    by_cases hzero : rcode = 0
    · obtain ⟨found, hfound⟩ := hsucceeds.mp ⟨_, hzero, rfl⟩
      obtain ⟨-, hreadable, rfl⟩ := (haccepted hfits _).mp hfound
      exact .inl ⟨hzero, hfits, hreadable, (covered_iff hqtype hformed).mpr (hsame _ _ ⟨hzero, rfl⟩ hfound)⟩
    · refine .inr ⟨hzero, ?_⟩
      by_cases hlow : rcode &&& 0x0f = 0
      · simp_all
      · exact .inl hlow

end

def oneAddress : DnsCrates where
  ip s := if s = "1.2.3.4" then some (.v4 #v[1, 2, 3, 4]) else none
  ipNet _ := none
  regex _ := none

/-- A predefined rule for every name, as it is compiled. -/
def predefinedRule (items : DnsItems) : CompiledDnsRule := .node ⟨items, [], [], [], [], []⟩ none [] []

def predefinedResolver (items : DnsItems) : DnsResolver :=
  { servers := ∅, rules := [predefinedRule items], finalTag := [] }

def plainRecord : DnsItems := { action := some "predefined".toList, answer := ["a. IN A 1.2.3.4"] }

theorem predefined_agree_plain :
    Asks queryForA ['a'] 1 ∧ ∃ rcode records, parseRcode plainRecord.rcode = .ok rcode ∧
      plainRecord.records.mapM (parseDnsRecord oneAddress.toParsers) = .ok records ∧
      (AgreeWhen rcode 1 queryForA records (written ['a'] records) →
        PathsAgree ((predefinedResolver plainRecord).lookupStart oneAddress.toParsers none ['a'] 1 {})
          ((predefinedResolver plainRecord).exchangeStart oneAddress.toParsers none queryForA) 7 1) ∧
      (DataFits (written ['a'] records) →
        PathsAgree ((predefinedResolver plainRecord).lookupStart oneAddress.toParsers none ['a'] 1 {})
          ((predefinedResolver plainRecord).exchangeStart oneAddress.toParsers none queryForA) 7 1 →
        AgreeWhen rcode 1 queryForA records (written ['a'] records)) := by
  have hasks : Asks queryForA ['a'] 1 := ⟨rfl, ⟨['a'], 1, 19⟩, rfl, rfl, rfl⟩
  have hvalid : validateDnsRule oneAddress true (.mk plainRecord []) = .ok () := rfl
  have hcompile : compileDnsRule oneAddress (.mk plainRecord []) = .ok (predefinedRule plainRecord) := rfl
  have hgoverns : (predefinedResolver plainRecord).selectRule none ['a'] 1 = some (predefinedRule plainRecord) := rfl
  have hid : dnsId queryForA = .ok 7 := rfl
  exact ⟨hasks, predefined_agree hvalid hcompile rfl (.inl rfl) hgoverns rfl hasks hid⟩

/-- A record whose owner is a wildcard that does not match the name. -/
def wildcardRecord : DnsItems := { action := some "predefined".toList, answer := ["*.b. IN A 1.2.3.4"] }

/-- The same without a wildcard, and with a response code of 16. -/
def extendedRcode : DnsItems := { plainRecord with rcode := some (.u64 16) }

/-- The lookup returns the address of a record that is not in the message; and with a response code of 16 the
    lookup fails while the message is accepted. -/
theorem predefined_paths_differ :
    validateDnsRule oneAddress true (.mk wildcardRecord []) = .ok () ∧
    (predefinedResolver wildcardRecord).lookupStart oneAddress.toParsers none ['a'] 1 {} = .ok
    (.inl [.v4 #v[1, 2, 3, 4]]) ∧
    Accepts ((predefinedResolver wildcardRecord).exchangeStart oneAddress.toParsers none queryForA) 7 1 [] ∧
    validateDnsRule oneAddress true (.mk extendedRcode []) = .ok () ∧
    (predefinedResolver extendedRcode).lookupStart oneAddress.toParsers none ['a'] 1 {} =
      .error (.message "DNS lookup rejected by rule with rcode 16") ∧
    Accepts ((predefinedResolver extendedRcode).exchangeStart oneAddress.toParsers none queryForA) 7 1
      [.v4 #v[1, 2, 3, 4]] := by
  refine ⟨rfl, rfl, ⟨_, 30, rfl, rfl⟩, rfl, rfl, ⟨_, 3600, rfl, rfl⟩⟩

end Xhttp.Dns
