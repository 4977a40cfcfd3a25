import Xhttp.Dns.Query

/- Messages that are written, rewritten and read again (`src/dns/message.rs`).

   What is proved: a query that is built reads back, with its client subnet in an OPT record
   (`query_round_trip`); the functions that write TTLs change nothing else (`ttl_rewriting`); and
   `parse_response` finds the addresses of a well-formed response and never reads outside of a message
   (`parse_response_wire`). -/
namespace Xhttp.Dns
open Xhttp.Lib Vless List Checked

/-! ## TTLs -/

theorem beU32_ofBeU32 (a b c d : UInt8) : beU32 (ofBeU32 a b c d) = [a, b, c, d] := by
  have ha := a.toNat_lt
  have hb := b.toNat_lt
  have hc := c.toNat_lt
  have hd := d.toNat_lt
  have hn : (ofBeU32 a b c d).toNat = ((a.toNat * 256 + b.toNat) * 256 + c.toNat) * 256 + d.toNat := by
    rw [ofBeU32, UInt32.toNat_ofNat']
    omega
  have hbyte : ∀ (k : Nat) (x : UInt8), k % 256 = x.toNat → UInt8.ofNat k = x := by
    intro k x h
    apply UInt8.toNat_inj.mp
    rw [UInt8.toNat_ofNat', h]
  rw [beU32, hn, hbyte _ a (by omega), hbyte _ b (by omega), hbyte _ c (by omega), hbyte _ d (by omega)]

section
variable {m : Bytes} {g : UInt32 → UInt32} {fields : List TtlField} {i : Nat}

theorem getElem?_of_index {x : UInt8} (h : index m i = .ok x) : m[i]? = some x := by
  unfold index at h
  split at h
  · next hx => rw [hx, Except.ok.inj h]
  · cases h

theorem getElem?_of_u32At {j : Nat} {n : UInt32} (h : u32At m i = .ok n) (hj : j < 4) : m[i + j]? = (beU32 n)[j]? := by
  obtain ⟨a, ha, h⟩ := bind_ok_iff.mp h
  obtain ⟨b, hb, h⟩ := bind_ok_iff.mp h
  obtain ⟨c, hc, h⟩ := bind_ok_iff.mp h
  obtain ⟨d, hd, h⟩ := bind_ok_iff.mp h
  cases h
  rw [beU32_ofBeU32]
  match j with
  | 0 => exact getElem?_of_index ha
  | 1 => exact getElem?_of_index hb
  | 2 => exact getElem?_of_index hc
  | 3 => exact getElem?_of_index hd

theorem u32At_overwriteTtls (h : ttlOffsets m = .ok fields) {f : TtlField} (hf : f ∈ fields) :
    u32At (overwriteTtls g m) f.offset = .ok (f.update g).ttl := by
  have hplaced := (ttlOffsets_placed (ttlOffsets_overwriteTtls g h)).1 _ (mem_map_of_mem hf)
  rw [TtlField.update_offset] at hplaced
  exact hplaced.2

theorem overwriteTtls_get (h : ttlOffsets m = .ok fields)
    (hi : ∀ f ∈ fields, f.recordType ≠ 41 → i < f.offset ∨ f.offset + 4 ≤ i) : (overwriteTtls g m)[i]? = m[i]? := by
  rw [overwriteTtls, h]
  exact (foldl_overwriteTtl fields fun f hf => ((ttlOffsets_placed h).1 f hf).1).2 i hi

/-- The message that agrees outside the TTLs and has the new ones. -/
theorem overwriteTtls_eq (h : ttlOffsets m = .ok fields)
    (hout : ∀ i, (∀ f ∈ fields, f.recordType ≠ 41 → i < f.offset ∨ f.offset + 4 ≤ i) → m'[i]? = m[i]?)
    (hval : ∀ f ∈ fields, f.recordType ≠ 41 → u32At m' f.offset = .ok (g f.ttl)) : overwriteTtls g m = m' := by
  apply ext_getElem?
  intro i
  by_cases hi : ∀ f ∈ fields, f.recordType ≠ 41 → i < f.offset ∨ f.offset + 4 ≤ i
  · rw [overwriteTtls_get h hi, hout i hi]
  · push Not at hi
    obtain ⟨f, hf, hkind, hlo, hhi⟩ := hi
    obtain ⟨j, rfl⟩ : ∃ j, i = f.offset + j := ⟨i - f.offset, by omega⟩
    have hnew := u32At_overwriteTtls (g := g) h hf
    rw [TtlField.update, if_pos hkind] at hnew
    rw [getElem?_of_u32At hnew (by omega), getElem?_of_u32At (hval f hf hkind) (by omega)]

/-- Writing TTLs twice. -/
theorem overwriteTtls_comp (g g' : UInt32 → UInt32) (m : Bytes) :
    overwriteTtls g' (overwriteTtls g m) = overwriteTtls (g' ∘ g) m := by
  cases h : ttlOffsets m with
  | error e => rw [overwriteTtls, overwriteTtls, overwriteTtls, h, h]
  | ok fields =>
    have h' := ttlOffsets_overwriteTtls g h
    refine (overwriteTtls_eq h (fun i hi => ?_) fun f hf hkind => ?_).symm
    · rw [overwriteTtls_get h', overwriteTtls_get h hi]
      simpa using hi
    · have hnew := u32At_overwriteTtls (g := g') h' (mem_map_of_mem hf)
      rw [TtlField.update_offset] at hnew
      simp [hnew, TtlField.update, hkind]

/-- The new message has the records of the old one where they were; the TTLs of those that are no OPT records
    are changed by `g`, and all other bytes are as before. -/
def TtlsBecome (g : UInt32 → UInt32) (fields : List TtlField) (m m' : Bytes) : Prop :=
  ttlOffsets m' = .ok (fields.map fun f => if f.recordType = 41 then f else { f with ttl := g f.ttl }) ∧
    m'.length = m.length ∧ ∀ i, (∀ f ∈ fields, f.recordType ≠ 41 → i < f.offset ∨ f.offset + 4 ≤ i) → m'[i]? = m[i]?

theorem ttlsBecome_overwriteTtls (g : UInt32 → UInt32) (h : ttlOffsets m = .ok fields) :
    TtlsBecome g fields m (overwriteTtls g m) := by
  refine ⟨?_, overwriteTtls_length g m, fun i => overwriteTtls_get h⟩
  rw [ttlOffsets_overwriteTtls g h]
  refine congrArg Except.ok (map_congr_left fun f _ => ?_)
  simp only [TtlField.update, ite_not]

theorem saturatingSub_add (x e e' : UInt32) :
    saturatingSub (saturatingSub x e) e' = saturatingSub x (UInt32.ofNat (min (e.toNat + e'.toNat) (2 ^ 32 - 1))) := by
  have hx := x.toNat_lt
  apply UInt32.toNat_inj.mp
  simp only [saturatingSub_toNat, UInt32.toNat_ofNat']
  omega

theorem foldl_minTtl_const {t : UInt32} : ∀ {ttls : List UInt32}, (∀ x ∈ ttls, x = t) → ttls.foldl minTtl t = t
  | [], _ => rfl
  | x :: ttls, h => by
    obtain ⟨rfl, hrest⟩ := forall_mem_cons.mp h
    rw [foldl_cons, minTtl, ite_self]
    exact foldl_minTtl_const hrest

theorem responseTtl_rewriteResponseTtls (h : ttlOffsets m = .ok fields) (hsome : ∃ f ∈ fields, f.recordType ≠ 41)
    (t : UInt32) : responseTtl (rewriteResponseTtls m t) = t := by
  have hall :
      ∀ x ∈ ((fields.map (TtlField.update fun _ => t)).filter fun f => f.recordType ≠ 41).map TtlField.ttl, x = t := by
    intro x hx
    obtain ⟨f', hf', rfl⟩ := mem_map.mp hx
    obtain ⟨hmem, hkind⟩ := mem_filter.mp hf'
    obtain ⟨f, -, rfl⟩ := mem_map.mp hmem
    simp only [TtlField.update_recordType, decide_eq_true_eq] at hkind
    simp [TtlField.update, hkind]
  rw [responseTtl, rewriteResponseTtls, ttlOffsets_overwriteTtls _ h]
  dsimp only
  split
  · next hnil =>
    obtain ⟨f, hf, hkind⟩ := hsome
    simp only [map_eq_nil_iff, filter_eq_nil_iff] at hnil
    simpa [hkind] using hnil _ (mem_map_of_mem hf)
  · next ttl ttls hcons =>
    rw [hcons] at hall
    obtain ⟨rfl, hrest⟩ := forall_mem_cons.mp hall
    exact foldl_minTtl_const hrest

end

/-- **TTL rewriting.** A message that `ttl_offsets` refuses is left alone. In any other, the reported fields are apart
    and inside, and ageing and rewriting change the TTLs of records that are no OPT records and nothing else. -/
theorem ttl_rewriting (m : Bytes) :
    match ttlOffsets m with
    | .error _ => (∀ e, ageResponseTtls m e = m) ∧ ∀ t, rewriteResponseTtls m t = m
    | .ok fields =>
      (∀ f ∈ fields, f.offset + 4 ≤ m.length) ∧ (fields.Pairwise fun f f' => f.offset + 4 ≤ f'.offset) ∧
      (∀ e, TtlsBecome (fun ttl => UInt32.ofNat (ttl.toNat - e.toNat)) fields m (ageResponseTtls m e)) ∧
      (∀ t, TtlsBecome (fun _ => t) fields m (rewriteResponseTtls m t)) ∧
      (∀ e e', ageResponseTtls (ageResponseTtls m e) e' =
        ageResponseTtls m (UInt32.ofNat (min (e.toNat + e'.toNat) (2 ^ 32 - 1)))) ∧
      ((∃ f ∈ fields, f.recordType ≠ 41) → ∀ t, responseTtl (rewriteResponseTtls m t) = t) := by
  split
  · next e h => simp only [ageResponseTtls, rewriteResponseTtls, overwriteTtls, h, implies_true, and_self]
  · next fields h =>
    obtain ⟨hin, hapart⟩ := ttlOffsets_placed h
    refine ⟨fun f hf => (hin f hf).1, hapart, fun e => ?_, fun t => ttlsBecome_overwriteTtls _ h, fun e e' => ?_,
      responseTtl_rewriteResponseTtls h⟩
    · have hsub : (fun ttl : UInt32 => UInt32.ofNat (ttl.toNat - e.toNat)) = fun ttl => saturatingSub ttl e := by
        funext ttl
        apply UInt32.toNat_inj.mp
        have hlt := ttl.toNat_lt
        rw [saturatingSub_toNat, UInt32.toNat_ofNat', Nat.mod_eq_of_lt (by omega)]
      rw [hsub]
      exact ttlsBecome_overwriteTtls _ h
    · rw [ageResponseTtls, ageResponseTtls, overwriteTtls_comp]
      refine congrFun (congrArg overwriteTtls (funext fun x => ?_)) m
      exact saturatingSub_add x e e'

/-! ## Queries -/

theorem endsWith_eq_false_of_split {name : Str} (h : ∀ l ∈ Str.split '.' name, l ≠ []) :
    Str.endsWith '.' name = false := by
  by_contra hends
  obtain ⟨before, rfl⟩ : ∃ before, name = before ++ ['.'] := by
    rw [Bool.not_eq_false, Str.endsWith, beq_iff_eq, getLast?_eq_some_iff] at hends
    exact hends
  refine h [] ?_ rfl
  rw [Str.split, splitOn_append_cons_self]
  exact mem_append_right _ (mem_singleton.mpr rfl)

/-- The name of a query, as it is written and as its labels are joined again. -/
theorem normalize_split {name : Str} (h : ∀ l ∈ Str.split '.' name, ValidLabel l) :
    normalize (List.intercalate ['.'] (Str.split '.' name)) = Str.toAsciiLowercase name := by
  rw [normalize, Str.split, intercalate_splitOn,
    Str.trimEndMatches_of_endsWith_eq_false (endsWith_eq_false_of_split fun l hl => (h l hl).1)]

section
variable {parsers : Parsers} {id qtype : UInt16} {name : Str}

/-- A query without its additional records. -/
def queryBytes (id qtype : UInt16) (labels : List Str) (additionals : UInt8) : Bytes :=
  beU16 id ++ [1, 0, 0, 1, 0, 0, 0, 0, 0, additionals] ++ wireName labels ++ beU16 qtype ++ beU16 1

/-- What the option of a client subnet carries. -/
def subnetOption (net : IpNet) : Bytes :=
  let length := (net.prefixLen + 7) / 8
  beU16 8 ++ beU16 (UInt16.ofNat (4 + length)) ++ beU16 (if net.addr.isIpv4 then 1 else 2) ++
    [UInt8.ofNat net.prefixLen, 0] ++ net.network.octets.take length

theorem appendClientSubnetOpt_ok {output m : Bytes} {subnet : Str}
    (h : appendClientSubnetOpt parsers output subnet = .ok m) :
    ∃ net, parseClientSubnet parsers subnet = .ok net ∧ m = output ++
      (wireName [] ++ recordTail 41 1232 0 (subnetOption net)) ∧ (subnetOption net).length < 2 ^ 16 := by
  simp only [appendClientSubnetOpt, bind_ok_iff] at h
  obtain ⟨net, hnet, length, hlength, address, haddress, hm⟩ := h
  unfold tryIntoU16 at hlength
  unfold slice at haddress
  split at hlength
  · next hfits =>
    cases hlength
    split at haddress
    · next hin =>
      cases haddress
      cases hm
      have hbytes := net.network.octets_length
      have hoption : (subnetOption net).length = 8 + (net.prefixLen + 7) / 8 := by
        simp only [subnetOption, length_append, beU16_length, length_cons, length_nil, length_take]
        omega
      refine ⟨net, hnet, ?_, by split at hbytes <;> omega⟩
      have hfour : UInt16.ofNat (8 + (net.prefixLen + 7) / 8) = 4 + UInt16.ofNat (4 + (net.prefixLen + 7) / 8) := by
        rw [show 8 + (net.prefixLen + 7) / 8 = 4 + (4 + (net.prefixLen + 7) / 8) by omega, UInt16.ofNat_add]
        rfl
      rw [recordTail, hoption, hfour]
      simp [subnetOption, wireName, wireLabels]
    · cases haddress
  · cases hlength

theorem buildQueryWithSubnet_ok_iff {subnet : Option Str} {m : Bytes} :
    buildQueryWithSubnet parsers id name qtype subnet = .ok m ↔ (∀ l ∈ Str.split '.' name, ValidLabel l) ∧
      match subnet with
      | none => m = queryBytes id qtype (Str.split '.' name) 0
      | some subnet => appendClientSubnetOpt parsers (queryBytes id qtype (Str.split '.' name) 1) subnet = .ok m := by
  simp only [buildQueryWithSubnet, bind_ok_iff, labelBytes_ok_iff, queryBytes, wireName]
  cases subnet with
  | none =>
    constructor
    · rintro ⟨_, ⟨hvalid, rfl⟩, h⟩
      cases h
      exact ⟨hvalid, by simp⟩
    · rintro ⟨hvalid, rfl⟩
      exact ⟨_, ⟨hvalid, rfl⟩, by simp [pure, Except.pure]⟩
  | some subnet =>
    constructor
    · rintro ⟨_, ⟨hvalid, rfl⟩, h⟩
      exact ⟨hvalid, by simpa using h⟩
    · rintro ⟨hvalid, h⟩
      exact ⟨_, ⟨hvalid, rfl⟩, by simpa using h⟩

/-- The parts of a query, and of one with a record behind it. -/
theorem queryBytes_parts (id qtype : UInt16) (labels : List Str) (additionals : UInt8) (rest : Bytes) :
    let m := queryBytes id qtype labels additionals ++ rest
    12 ≤ m.length ∧ u16At m 4 = .ok 1 ∧ u16At m 6 = .ok 0 ∧ u16At m 8 = .ok 0 ∧
      u16At m 10 = .ok (ofBeU16 0 additionals) ∧
      m.drop 12 = wireName labels ++ (beU16 qtype ++ (beU16 1 ++ rest)) := by
  intro m
  have hm : m = beU16 id ++
      ([1, 0, 0, 1, 0, 0, 0, 0, 0, additionals] ++ (wireName labels ++ (beU16 qtype ++ (beU16 1 ++ rest)))) := by
    simp [m, queryBytes]
  refine ⟨?_, ?_, ?_, ?_, ?_, ?_⟩
  · rw [hm]
    simp only [length_append, length_cons, beU16_length]
    omega
  all_goals rw [hm]; rfl

theorem parseQuestion_queryBytes (id qtype : UInt16) {labels : List Str}
    (hvalid : ∀ l ∈ labels, ValidLabel l) (additionals : UInt8) (rest : Bytes) :
    parseQuestion (queryBytes id qtype labels additionals ++ rest) =
      .ok ⟨normalize (List.intercalate ['.'] labels), qtype, (queryBytes id qtype labels additionals).length⟩ := by
  obtain ⟨hlong, hquestions, -, -, -, hdrop⟩ := queryBytes_parts id qtype labels additionals rest
  have hlength : (queryBytes id qtype labels additionals).length = 12 + (wireName labels).length + 4 := by
    simp only [queryBytes, length_append, length_cons, length_nil, beU16_length]
  refine parseQuestion_ok_iff.mpr ⟨1, labels, _, hquestions, by decide, hvalid, hlong, hdrop, hlength, ?_, ?_, rfl⟩
  · rw [length_append]
    exact Nat.le_add_right _ _
  · exact u16At_of_drop (drop_of_append hdrop)

/-- **Query round trip.** -/
theorem query_round_trip (parsers : Parsers) (id qtype : UInt16) (name : Str) (subnet : Option Str) (m : Bytes)
    (h : buildQueryWithSubnet parsers id name qtype subnet = .ok m) :
    let questionEnd := 12 + (wireName (Str.split '.' name)).length + 4
    parseQuestion m = .ok ⟨Str.toAsciiLowercase name, qtype, questionEnd⟩ ∧
      match subnet with
      | none => questionEnd = m.length
      | some subnet =>
        ∃ net query, parseClientSubnet parsers subnet = .ok net ∧
          ((Str.split '.' name).length ≤ 127 →
            ttlOffsets m = .ok [⟨questionEnd + 5, 41, 0⟩] ∧
              (∃ length, u16At m (questionEnd + 9) = .ok length ∧ questionEnd + 11 + length.toNat = m.length) ∧
              m.drop (questionEnd + 11) = subnetOption net) ∧
          buildQueryWithSubnet parsers id name qtype none = .ok query ∧
            addClientSubnet parsers query subnet = .ok m := by
  obtain ⟨hvalid, hm⟩ := buildQueryWithSubnet_ok_iff.mp h
  have hlength : ∀ additionals, (queryBytes id qtype (Str.split '.' name) additionals).length =
      12 + (wireName (Str.split '.' name)).length + 4 := by
    intro additionals
    simp only [queryBytes, length_append, length_cons, length_nil, beU16_length]
  cases subnet with
  | none =>
    cases hm
    have hparse := parseQuestion_queryBytes id qtype hvalid 0 []
    rw [append_nil, hlength, normalize_split hvalid] at hparse
    exact ⟨hparse, (hlength 0).symm⟩
  | some subnet =>
    obtain ⟨net, hnet, rfl, hfits⟩ := appendClientSubnetOpt_ok hm
    refine ⟨?_, net, queryBytes id qtype (Str.split '.' name) 0, hnet, ?_, ?_, ?_⟩
    · rw [parseQuestion_queryBytes id qtype hvalid, hlength, normalize_split hvalid]
    · intro hcount
      generalize hlabels : Str.split '.' name = labels at *
      generalize hrecord : wireName [] ++ recordTail 41 1232 0 (subnetOption net) = record at *
      obtain ⟨hlong, hqd, han, hns, har, hdrop⟩ := queryBytes_parts id qtype labels 1 record
      have hopt : (queryBytes id qtype labels 1 ++ record).drop (12 + (wireName labels).length + 4) =
          wireName [] ++ (recordTail 41 1232 0 (subnetOption net) ++ []) := by
        rw [← hlength 1, drop_left, ← hrecord, append_nil]
      generalize queryBytes id qtype labels 1 ++ record = m at *
      have hroot : skipName m (12 + (wireName labels).length + 4) = .ok (12 + (wireName labels).length + 4 + 1) :=
        skipName_wireName (forall_mem_nil ValidLabel) hopt
      obtain ⟨hkind, httl, hlen, hnat, hend, hdata⟩ := recordTail_of_drop hfits (drop_of_append hopt)
      have hquestion : skipQuestions m 1 12 = .ok (12 + (wireName labels).length + 4) := by
        have hle : ¬ m.length < 12 + (wireName labels).length + 4 := by
          omega
        rw [skipQuestions, skipName_wireName hvalid hdrop, if_pos hcount]
        show (bailIf _ _ >>= fun _ => _) = _
        rw [bailIf, if_neg hle]
        rfl
      rw [append_nil] at hdata
      refine ⟨ttlOffsets_ok_iff.mpr ⟨hlong, 1, 0, 0, 1, _, hqd, han, hns, har, hquestion, recordFields_ok_iff.mpr
        ⟨[⟨_, 41, 0, UInt16.ofNat (subnetOption net).length⟩], _, rfl,
          .cons ⟨hroot, hkind, httl, hlen, ?_⟩ .nil, rfl⟩⟩, ⟨_, hlen, ?_⟩, hdata⟩
      · show _ + 10 + (UInt16.ofNat (subnetOption net).length).toNat ≤ _
        rw [hnat]
        exact hend
      · have hrest := congrArg List.length hdata
        rw [length_drop] at hrest
        have hone : (wireName []).length = 1 := rfl
        omega
    · exact buildQueryWithSubnet_ok_iff.mpr ⟨hvalid, rfl⟩
    · obtain ⟨hlong, -, -, -, har, -⟩ := queryBytes_parts id qtype (Str.split '.' name) 0 []
      rw [append_nil] at hlong har
      simp only [addClientSubnet, bind_ok_iff, bailIf_ok_iff]
      exact ⟨(), Nat.not_lt.mpr hlong, 0, har, (), not_not.mpr rfl, hm⟩

end

theorem query_round_trip_subnet :
    let parsers : Parsers := ⟨fun _ => none, fun _ => some ⟨.ofBits true 0x0a800000, 9⟩⟩
    ∃ m, buildQueryWithSubnet parsers 7 ['A'] 1 (some []) = .ok m ∧ parseQuestion m = .ok ⟨['a'], 1, 19⟩ := by
  intro parsers
  obtain ⟨m, hm⟩ : ∃ m, buildQueryWithSubnet parsers 7 ['A'] 1 (some []) = .ok m := ⟨_, rfl⟩
  exact ⟨m, hm, (query_round_trip parsers 7 1 ['A'] (some []) m hm).1⟩

/-! ## Responses -/

section
variable {b rest : Bytes} {p : Nat} {qtype : UInt16}

/-- The addresses that the answer of a response gives to a question of this type. -/
def WireRecord.addresses (qtype : UInt16) (r : WireRecord) : List IpAddr :=
  if r.kind = qtype then (recordAddress qtype r.rdata).toList else []

/-- The TTLs of the answers of this type. -/
def ttlsOf (qtype : UInt16) (rs : List WireRecord) : List UInt32 :=
  (rs.filter fun r => r.kind = qtype).map WireRecord.ttl

theorem readAnswers_wire {rs : List WireRecord} (h : b.drop p = rs.flatMap WireRecord.bytes ++ rest) (qtype : UInt16)
    (out : List IpAddr) (t : UInt32) : readAnswers b qtype rs.length p out t =
      .ok (out ++ rs.flatMap (WireRecord.addresses qtype), (ttlsOf qtype rs).foldl minTtl t) := by
  induction rs generalizing p out t with
  | nil => simp [readAnswers, ttlsOf]
  | cons r rs ih =>
    rw [flatMap_cons, append_assoc] at h
    obtain ⟨hat, hstop, hdata⟩ := WireRecord.at_of_drop h
    have hnat : (r.place p).length.toNat = r.rdata.length := UInt16.toNat_ofNat_of_lt' r.fits
    rw [length_cons, readAnswers_succ hat.name hat.kind hat.ttl hat.length hat.inside, hdata, hnat, take_left,
      ← hnat, ← Place.stop, hstop, ih (drop_of_append h)]
    by_cases hkind : r.kind = qtype
    · simp [WireRecord.place, hkind, ttlsOf, WireRecord.addresses]
    · simp [WireRecord.place, hkind, ttlsOf, WireRecord.addresses]

theorem minTtl_toNat (a b : UInt32) : (minTtl a b).toNat = min a.toNat b.toNat := by
  unfold minTtl
  split
  · next h =>
    rw [UInt32.le_iff_toNat_le] at h
    omega
  · next h =>
    rw [UInt32.le_iff_toNat_le] at h
    omega

theorem foldl_minTtl_toNat : ∀ (ttls : List UInt32) (t : UInt32),
    (ttls.foldl minTtl t).toNat = (ttls.map UInt32.toNat).foldl min t.toNat
  | [], _ => rfl
  | x :: ttls, t => by
    rw [foldl_cons, foldl_minTtl_toNat ttls, minTtl_toNat]
    rfl

theorem foldl_min_le : ∀ (ns : List Nat) (n : Nat), ns.foldl min n ≤ n
  | [], n => Nat.le_refl n
  | k :: ns, n => Nat.le_trans (foldl_min_le ns (min n k)) (Nat.min_le_left n k)

/-- The TTL of a response: 30 stands for the start value, which is above all TTLs. -/
theorem foldl_minTtl_or {ttls : List UInt32} (h : ∀ t ∈ ttls, t.toNat < 2 ^ 31) :
    let ttl := ttls.foldl minTtl 0xffffffff
    (if ttl = 0xffffffff then 30 else ttl).toNat = (ttls.map UInt32.toNat).min?.getD 30 := by
  cases ttls with
  | nil => rfl
  | cons x ttls =>
    have hx := h x mem_cons_self
    have hmin : ((x :: ttls).foldl minTtl 0xffffffff).toNat = (ttls.map UInt32.toNat).foldl min x.toNat := by
      rw [foldl_minTtl_toNat, map_cons, foldl_cons, Nat.min_eq_right]
      exact Nat.le_of_lt_succ (Nat.lt_trans hx (by decide))
    have hle := foldl_min_le (ttls.map UInt32.toNat) x.toNat
    have hne : (x :: ttls).foldl minTtl 0xffffffff ≠ 0xffffffff := by
      intro heq
      rw [heq] at hmin
      have hmax : (0xffffffff : UInt32).toNat = 4294967295 := rfl
      omega
    dsimp only
    rw [if_neg hne, hmin]
    rfl

theorem readAnswers_ne_panic : ∀ (answers p : Nat) (out : List IpAddr) (t : UInt32),
    readAnswers b qtype answers p out t ≠ .error .panic
  | 0, _, _, _ => nofun
  | answers + 1, p, out, t => by
    refine bind_ne_panic (skipLabels_ne_panic 127 p) fun q => bailIf_bind_ne_panic fun hfixed => ?_
    obtain ⟨typ, htyp⟩ := u16At_ok_of_le (show q + 2 ≤ b.length by omega)
    obtain ⟨ttl, httl⟩ := u32At_ok_of_le (show q + 4 + 4 ≤ b.length by omega)
    obtain ⟨len, hlen⟩ := u16At_ok_of_le (show q + 8 + 2 ≤ b.length by omega)
    refine ok_bind_ne_panic htyp (ok_bind_ne_panic httl (ok_bind_ne_panic hlen ?_))
    refine bailIf_bind_ne_panic fun hend => ?_
    split
    · refine ok_bind_ne_panic (slice_of_le (Nat.le_add_right _ _) (Nat.not_lt.mp hend)) ?_
      exact readAnswers_ne_panic answers _ _ _
    · exact readAnswers_ne_panic answers _ _ _

theorem parseResponse_ne_panic (id qtype : UInt16) (b : Bytes) : parseResponse id qtype b ≠ .error .panic := by
  refine bailIf_bind_ne_panic fun hlong => ?_
  have hheader : ∀ i, i + 2 ≤ 12 → ∃ n, u16At b i = .ok n := fun i hi => u16At_ok_of_le (by omega)
  obtain ⟨_, h0⟩ := hheader 0 (by omega)
  obtain ⟨_, h2⟩ := hheader 2 (by omega)
  obtain ⟨_, h4⟩ := hheader 4 (by omega)
  obtain ⟨_, h6⟩ := hheader 6 (by omega)
  refine ok_bind_ne_panic h0 (bailIf_bind_ne_panic fun _ => ?_)
  refine ok_bind_ne_panic h2 (bailIf_bind_ne_panic fun _ => ?_)
  refine ok_bind_ne_panic h4 (ok_bind_ne_panic h6 ?_)
  refine bind_ne_panic (skipQuestions_ne_panic _ _) fun q => ?_
  exact bind_ne_panic (readAnswers_ne_panic _ _ _ _) fun _ => nofun

end

/-- **Response parsing.** Of a well-formed response without an error code, the addresses of the answers of the
    type that is asked for and the least of their TTLs; of any bytes, no access outside of them. -/
theorem parse_response_wire (m : WireMessage) (qtype : UInt16) (b : Bytes) :
    (m.flags &&& 0x8000 ≠ 0 ∧ m.flags &&& 15 = 0 ∧ (qtype = 1 ∨ qtype = 28) ∧ (∀ r ∈ m.answers, r.ttl.toNat < 2 ^ 31) →
      ∃ ttl, parseResponse m.id qtype m.bytes = .ok (m.answers.flatMap (WireRecord.addresses qtype), ttl) ∧
        ttl.toNat = ((ttlsOf qtype m.answers).map UInt32.toNat).min?.getD 30) ∧
      ∀ id qtype, parseResponse id qtype b ≠ .error .panic := by
  refine ⟨?_, fun id qtype => parseResponse_ne_panic id qtype b⟩
  rintro ⟨hresponse, hnoerror, -, httls⟩
  obtain ⟨hlong, hid, hflags, hquestions, hanswers, hdrop⟩ := m.header_of_bytes
  obtain ⟨hqd, han, -, -⟩ := m.counted
  have hread := readAnswers_wire (drop_of_append hdrop) qtype [] 0xffffffff
  have hskip := skipQuestions_of_drop hdrop
  refine ⟨_, parseResponse_ok_iff.mpr ⟨hlong, hid, ⟨_, hflags, hresponse, hnoerror⟩, ?_⟩, foldl_minTtl_or ?_⟩
  · simp only [answersOf, bind_ok_iff]
    refine ⟨_, hquestions, _, hanswers, 12 + (m.questions.flatMap WireQuestion.bytes).length, ?_,
      (m.answers.flatMap (WireRecord.addresses qtype), (ttlsOf qtype m.answers).foldl minTtl 0xffffffff), ?_, rfl⟩
    · rw [UInt16.toNat_ofNat_of_lt' hqd, hskip]
    · rw [UInt16.toNat_ofNat_of_lt' han, hread]
      rfl
  · intro t ht
    obtain ⟨r, hr, rfl⟩ := mem_map.mp ht
    exact httls r (mem_of_mem_filter hr)

end Xhttp.Dns
