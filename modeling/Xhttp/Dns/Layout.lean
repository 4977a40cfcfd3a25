import Xhttp.Dns.Message

/- How a DNS message is laid out. `EncodedName`, `WireRecord` and `WireMessage` carry the bounds of their length fields,
   so that every value has an encoding; `Place` is a record as a reader finds it in any bytes. The loops that read
   records are then described by lists of places: `recordFields_ok_iff` for `ttl_offsets`. -/
namespace Xhttp.Dns
open Xhttp.Lib List Checked

section
variable {p : Nat} {b rest : Bytes} {part : Bytes}

theorem index_of_drop {i : Nat} {x : UInt8} (h : (b.drop p)[i]? = some x) : index b (p + i) = .ok x := by
  rw [getElem?_drop] at h
  rw [index, h]

theorem u16At_of_drop {n : UInt16} (h : b.drop p = beU16 n ++ rest) : u16At b p = .ok n := by
  have hindex : ∀ i x, (beU16 n ++ rest)[i]? = some x → index b (p + i) = .ok x := fun i x hx =>
    index_of_drop (h ▸ hx)
  unfold u16At
  rw [show index b p = .ok _ from hindex 0 _ rfl, hindex 1 _ rfl]
  exact congrArg Except.ok (ofBeU16_beU16 n)

theorem u32At_of_drop {n : UInt32} (h : b.drop p = beU32 n ++ rest) : u32At b p = .ok n := by
  have hindex : ∀ i x, (beU32 n ++ rest)[i]? = some x → index b (p + i) = .ok x := fun i x hx =>
    index_of_drop (h ▸ hx)
  unfold u32At
  rw [show index b p = .ok _ from hindex 0 _ rfl, hindex 1 _ rfl, hindex 2 _ rfl, hindex 3 _ rfl]
  exact congrArg Except.ok (ofBeU32_beU32 n)

theorem u16At_ok_of_le (h : p + 2 ≤ b.length) : ∃ n, u16At b p = .ok n := by
  unfold u16At
  rw [index_of_lt (show p < b.length by omega), index_of_lt (show p + 1 < b.length by omega)]
  exact ⟨_, rfl⟩

theorem drop_of_append (h : b.drop p = part ++ rest) : b.drop (p + part.length) = rest := by
  rw [← drop_drop, h, drop_left]

theorem le_length_of_drop (h : b.drop p = part ++ rest) (hpart : part ≠ []) : p + part.length ≤ b.length := by
  have hlength := congrArg List.length h
  have hpos := length_pos_iff.mpr hpart
  rw [length_drop, length_append] at hlength
  omega

end

/-! ## Names -/

inductive NameEnd where
  | root
  | pointer (hi lo : UInt8)
  deriving DecidableEq, Repr

def NameEnd.bytes : NameEnd → Bytes
  | .root => [0]
  | .pointer hi lo => [hi ||| 0xc0, lo]

def encodedLabels (labels : List Bytes) : Bytes := labels.flatMap fun l => UInt8.ofNat l.length :: l

structure EncodedName where
  labels : List Bytes
  stop : NameEnd
  sized : ∀ l ∈ labels, 1 ≤ l.length ∧ l.length ≤ 63
  short : labels.length ≤ 127

def EncodedName.bytes (n : EncodedName) : Bytes := encodedLabels n.labels ++ n.stop.bytes

theorem length_byte {n : Nat} (hpos : 1 ≤ n) (hle : n ≤ 63) :
    UInt8.ofNat n ≠ 0 ∧ UInt8.ofNat n &&& 0xc0 = 0 ∧ ¬ 63 < UInt8.ofNat n ∧ (UInt8.ofNat n).toNat = n := by
  have hall : ∀ n < 64, 1 ≤ n → UInt8.ofNat n ≠ 0 ∧ UInt8.ofNat n &&& 0xc0 = 0 ∧ ¬ 63 < UInt8.ofNat n ∧
      (UInt8.ofNat n).toNat = n := by decide
  exact hall n (Nat.lt_succ_of_le hle) hpos

theorem pointer_byte (hi : UInt8) : hi ||| 0xc0 ≠ 0 ∧ (hi ||| 0xc0) &&& 0xc0 = 0xc0 := by
  have hall : ∀ n < 256, UInt8.ofNat n ||| 0xc0 ≠ 0 ∧ (UInt8.ofNat n ||| 0xc0) &&& 0xc0 = 0xc0 := by decide +kernel
  have h := hall hi.toNat hi.toNat_lt
  rwa [UInt8.ofNat_toNat] at h

section
variable {b rest : Bytes}

theorem skipLabels_stop {stop : NameEnd} (h : b.drop p = stop.bytes ++ rest) (n : Nat) :
    skipLabels b n p = .ok (p + stop.bytes.length) := by
  have hle := le_length_of_drop h (by cases stop <;> exact cons_ne_nil _ _)
  cases stop with
  | root =>
    have hget : b[p]? = some 0 := by
      rw [← head?_drop, h]
      rfl
    rw [skipLabels, hget]
    rfl
  | pointer hi lo =>
    have hget : b[p]? = some (hi ||| 0xc0) := by
      rw [← head?_drop, h]
      rfl
    obtain ⟨hzero, hptr⟩ := pointer_byte hi
    have hend : ¬ b.length ≤ p + 1 := Nat.not_le.mpr hle
    rw [skipLabels, hget]
    simp [hzero, hptr, hend, NameEnd.bytes]

/-- The loop of `skip_name` passes over the labels that it counts. -/
theorem skipLabels_of_drop {labels : List Bytes} (hsized : ∀ l ∈ labels, 1 ≤ l.length ∧ l.length ≤ 63) {stop : NameEnd}
    (n : Nat) (h : b.drop p = encodedLabels labels ++ (stop.bytes ++ rest)) :
    skipLabels b n p = if labels.length ≤ n then .ok (p + (encodedLabels labels ++ stop.bytes).length)
      else .error (.message "invalid DNS name") := by
  induction labels generalizing n p with
  | nil => exact skipLabels_stop h n
  | cons label labels ih =>
    obtain ⟨hlabel, hlabels⟩ := forall_mem_cons.mp hsized
    obtain ⟨hzero, hptr, hsmall, hnat⟩ := length_byte hlabel.1 hlabel.2
    have hwire : b.drop p = (UInt8.ofNat label.length :: label) ++ (encodedLabels labels ++ (stop.bytes ++ rest)) := by
      rw [h]
      simp [encodedLabels]
    have hget : b[p]? = some (UInt8.ofNat label.length) := by
      rw [← head?_drop, hwire]
      rfl
    have hnext : b.drop (p + 1 + label.length) = encodedLabels labels ++ (stop.bytes ++ rest) := by
      rw [← drop_of_append hwire, length_cons, Nat.add_assoc, Nat.add_comm 1]
    have hlong : ¬ b.length < p + 1 + label.length := by
      have hle := le_length_of_drop hwire (cons_ne_nil _ _)
      rw [length_cons] at hle
      omega
    rw [skipLabels, hget]
    cases n with
    | zero => simp [hzero, hptr, hsmall, hnat, hlong]
    | succ n =>
      simp only [hzero, hptr, hsmall, hnat, hlong, if_false, ih hlabels n hnext, length_cons, Nat.add_le_add_iff_right]
      simp [encodedLabels]
      grind

theorem skipName_encodedName {name : EncodedName} (h : b.drop p = name.bytes ++ rest) :
    skipName b p = .ok (p + name.bytes.length) := by
  rw [EncodedName.bytes, append_assoc] at h
  rw [skipName, skipLabels_of_drop name.sized 127 h, if_pos name.short]
  rfl

theorem skipLabels_ne_panic : ∀ (n p : Nat), skipLabels b n p ≠ .error .panic
  | 0, p => by
    unfold skipLabels
    grind
  | n + 1, p => by
    unfold skipLabels
    grind [skipLabels_ne_panic n]

theorem skipQuestions_ne_panic : ∀ (n p : Nat), skipQuestions b n p ≠ .error .panic
  | 0, _ => nofun
  | n + 1, p =>
    bind_ne_panic (skipLabels_ne_panic 127 p) fun _ => bailIf_bind_ne_panic fun _ => skipQuestions_ne_panic n _

end

/-! ## Records -/

/-- A record of a message, as a reader finds it: where the part behind its name starts, and what that says. -/
structure Place where
  fixed : Nat
  kind : UInt16
  ttl : UInt32
  length : UInt16
  deriving DecidableEq, Repr

def Place.stop (r : Place) : Nat := r.fixed + 10 + r.length.toNat

def Place.field (r : Place) : TtlField := ⟨r.fixed + 4, r.kind, r.ttl⟩

/-- The record starts, with its name, at this position. -/
structure Place.At (m : Bytes) (p : Nat) (r : Place) : Prop where
  name : skipName m p = .ok r.fixed
  kind : u16At m r.fixed = .ok r.kind
  ttl : u32At m (r.fixed + 4) = .ok r.ttl
  length : u16At m (r.fixed + 8) = .ok r.length
  inside : r.stop ≤ m.length

/-- Records that follow each other from one position up to another. -/
inductive Placed (m : Bytes) : Nat → List Place → Nat → Prop
  | nil {p : Nat} : Placed m p [] p
  | cons {p q : Nat} {r : Place} {rs : List Place} : r.At m p → Placed m r.stop rs q → Placed m p (r :: rs) q

section
variable {m : Bytes} {q : Nat}

/-- What `ttl_offsets` reports of the records. -/
theorem recordFields_ok_iff {n : Nat} {fields : List TtlField} :
    recordFields m n p = .ok fields ↔ ∃ rs q, rs.length = n ∧ Placed m p rs q ∧ fields = rs.map Place.field := by
  induction n generalizing p fields with
  | zero =>
    constructor
    · intro h
      cases h
      exact ⟨[], p, rfl, .nil, rfl⟩
    · rintro ⟨rs, q, hlength, -, rfl⟩
      rw [length_eq_zero_iff.mp hlength]
      rfl
  | succ n ih =>
    rw [recordFields_succ_ok]
    constructor
    · rintro ⟨fixed, kind, ttl, length, fields, hname, -, hkind, httl, hlength, hin, hrest, rfl⟩
      obtain ⟨rs, q, rfl, hplaced, rfl⟩ := ih.mp hrest
      exact ⟨⟨fixed, kind, ttl, length⟩ :: rs, q, rfl, .cons ⟨hname, hkind, httl, hlength, hin⟩ hplaced, rfl⟩
    · rintro ⟨rs, q, hlength, hplaced, rfl⟩
      cases hplaced with
      | nil => cases hlength
      | @cons _ _ r rs hr hrs =>
        have hin := hr.inside
        unfold Place.stop at hin
        exact ⟨r.fixed, r.kind, r.ttl, r.length, rs.map Place.field, hr.name, by omega, hr.kind, hr.ttl, hr.length, hin,
          ih.mpr ⟨rs, q, Nat.succ.inj hlength, hrs, rfl⟩, rfl⟩

end

/-- A record behind its name. -/
def recordTail (kind klass : UInt16) (ttl : UInt32) (rdata : Bytes) : Bytes :=
  beU16 kind ++ beU16 klass ++ beU32 ttl ++ beU16 (UInt16.ofNat rdata.length) ++ rdata

structure WireRecord where
  name : EncodedName
  kind : UInt16
  klass : UInt16
  ttl : UInt32
  rdata : Bytes
  fits : rdata.length < 2 ^ 16

def WireRecord.bytes (r : WireRecord) : Bytes := r.name.bytes ++ recordTail r.kind r.klass r.ttl r.rdata

/-- The record when its encoding starts at this position. -/
def WireRecord.place (r : WireRecord) (p : Nat) : Place :=
  ⟨p + r.name.bytes.length, r.kind, r.ttl, UInt16.ofNat r.rdata.length⟩

section
variable {m rest : Bytes} {q : Nat}

/-- The fields of a record behind its name, and its data. -/
theorem recordTail_of_drop {kind klass : UInt16} {ttl : UInt32} {rdata : Bytes} (hfits : rdata.length < 2 ^ 16)
    (h : m.drop q = recordTail kind klass ttl rdata ++ rest) :
    u16At m q = .ok kind ∧ u32At m (q + 4) = .ok ttl ∧ u16At m (q + 8) = .ok (UInt16.ofNat rdata.length) ∧
      (UInt16.ofNat rdata.length).toNat = rdata.length ∧ q + 10 + rdata.length ≤ m.length ∧
        m.drop (q + 10) = rdata ++ rest := by
  have hrecord : m.drop q =
      beU16 kind ++ (beU16 klass ++ (beU32 ttl ++ (beU16 (UInt16.ofNat rdata.length) ++ (rdata ++ rest)))) := by
    rw [h, recordTail]
    simp only [append_assoc]
  have hclass := drop_of_append hrecord
  have httl := drop_of_append hclass
  have hlen := drop_of_append httl
  have hrdata := drop_of_append hlen
  simp only [beU16_length, beU32_length, Nat.add_assoc] at httl hlen hrdata
  have hend : q + 10 + rdata.length ≤ m.length := by
    have hlength := congrArg List.length hrdata
    have hbound := le_length_of_drop hlen (by simp [beU16])
    rw [length_drop, length_append] at hlength
    rw [beU16_length] at hbound
    omega
  exact ⟨u16At_of_drop hrecord, u32At_of_drop httl, u16At_of_drop hlen, UInt16.toNat_ofNat_of_lt' hfits, hend, hrdata⟩

theorem WireRecord.at_of_drop {r : WireRecord} (h : m.drop p = r.bytes ++ rest) :
    (r.place p).At m p ∧ (r.place p).stop = p + r.bytes.length ∧ m.drop ((r.place p).fixed + 10) = r.rdata ++ rest := by
  rw [bytes, append_assoc] at h
  obtain ⟨hkind, httl, hlength, hnat, hend, hrdata⟩ := recordTail_of_drop r.fits (drop_of_append h)
  have hstop : (r.place p).stop = p + r.name.bytes.length + 10 + r.rdata.length := by
    rw [Place.stop, place, hnat]
  refine ⟨⟨skipName_encodedName h, hkind, httl, hlength, hstop ▸ hend⟩, ?_, hrdata⟩
  rw [hstop, bytes, recordTail]
  simp only [length_append, beU16_length, beU32_length]
  omega

end

/-! ## Messages -/

structure WireQuestion where
  name : EncodedName
  qtype : UInt16
  qclass : UInt16

def WireQuestion.bytes (q : WireQuestion) : Bytes := q.name.bytes ++ (beU16 q.qtype ++ beU16 q.qclass)

structure WireMessage where
  id : UInt16
  flags : UInt16
  questions : List WireQuestion
  answers : List WireRecord
  authorities : List WireRecord
  additionals : List WireRecord
  counted : questions.length < 2 ^ 16 ∧ answers.length < 2 ^ 16 ∧ authorities.length < 2 ^ 16 ∧
    additionals.length < 2 ^ 16

def WireMessage.header (m : WireMessage) : Bytes :=
  beU16 m.id ++ beU16 m.flags ++ beU16 (UInt16.ofNat m.questions.length) ++ beU16 (UInt16.ofNat m.answers.length) ++
    beU16 (UInt16.ofNat m.authorities.length) ++ beU16 (UInt16.ofNat m.additionals.length)

def WireMessage.bytes (m : WireMessage) : Bytes :=
  m.header ++ (m.questions.flatMap WireQuestion.bytes ++ (m.answers.flatMap WireRecord.bytes ++
    ((m.authorities ++ m.additionals).flatMap WireRecord.bytes)))

theorem skipQuestions_of_drop {m rest : Bytes} {qs : List WireQuestion}
    (h : m.drop p = qs.flatMap WireQuestion.bytes ++ rest) :
    skipQuestions m qs.length p = .ok (p + (qs.flatMap WireQuestion.bytes).length) := by
  induction qs generalizing p with
  | nil => rfl
  | cons q qs ih =>
    rw [flatMap_cons, append_assoc, WireQuestion.bytes, append_assoc] at h
    have hfields := drop_of_append h
    have hrest := ih (drop_of_append hfields)
    have hle := le_length_of_drop hfields (by simp [beU16])
    have hfour : (beU16 q.qtype ++ beU16 q.qclass).length = 4 := rfl
    rw [hfour] at hrest hle
    rw [length_cons, skipQuestions, skipName_encodedName h]
    show (bailIf (m.length < p + q.name.bytes.length + 4) _ >>= fun _ => _) = _
    rw [bailIf, if_neg (Nat.not_lt.mpr hle)]
    show skipQuestions m qs.length (p + q.name.bytes.length + 4) = _
    rw [hrest, flatMap_cons, length_append, WireQuestion.bytes, length_append, hfour]
    simp only [Nat.add_assoc]

/-- The counts in the header of a message. -/
theorem WireMessage.header_of_bytes (m : WireMessage) :
    12 ≤ m.bytes.length ∧ u16At m.bytes 0 = .ok m.id ∧ u16At m.bytes 2 = .ok m.flags ∧
      u16At m.bytes 4 = .ok (UInt16.ofNat m.questions.length) ∧ u16At m.bytes 6 = .ok (UInt16.ofNat m.answers.length) ∧
      m.bytes.drop 12 = m.questions.flatMap WireQuestion.bytes ++ (m.answers.flatMap WireRecord.bytes ++
        ((m.authorities ++ m.additionals).flatMap WireRecord.bytes)) := by
  have h0 : m.bytes.drop 0 = beU16 m.id ++ (beU16 m.flags ++ (beU16 (UInt16.ofNat m.questions.length) ++
      (beU16 (UInt16.ofNat m.answers.length) ++ (m.bytes.drop 8)))) := rfl
  have h2 := drop_of_append h0
  have h4 := drop_of_append h2
  have h6 := drop_of_append h4
  refine ⟨?_, u16At_of_drop h0, u16At_of_drop h2, u16At_of_drop h4, u16At_of_drop h6, rfl⟩
  rw [bytes, length_append]
  exact Nat.le_add_right 12 _

end Xhttp.Dns
