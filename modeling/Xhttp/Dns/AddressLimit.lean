import Xhttp.Dns.Answers

/- The address limit of a DNS rule (`dns_rule_address_limit_matches` in `src/dns/message.rs`): a rule
   whose rule-sets contain prefixes is to let through only addresses that they match.

   A message carries the addresses that `parse_response` reads in it as answers of type A or AAAA. Rewriting its
   id and its TTLs leaves them alone (`carries_overwriteTtls`, `carries_overwrite_id`). -/
namespace Xhttp.Dns
open Xhttp.Lib Xhttp.Routing Vless List Checked

/-! ## The addresses in a message -/

/-- The message answers with this address. -/
def Carries (m : Bytes) (a : IpAddr) : Prop :=
  ∃ qtype : UInt16, (qtype = 1 ∨ qtype = 28) ∧ ∃ found, (∃ ttl, answersOf qtype m = .ok (found, ttl)) ∧ a ∈ found

section
variable {m m' : Bytes} {qtype : UInt16}

theorem map_fst_ok_iff {α β : Type} {x : Except Failure (α × β)} {a : α} :
    x.map Prod.fst = .ok a ↔ ∃ b, x = .ok (a, b) := by
  cases x with
  | error e => exact ⟨nofun, nofun⟩
  | ok x =>
    constructor
    · intro h
      cases h
      exact ⟨x.2, rfl⟩
    · rintro ⟨b, h⟩
      cases h
      rfl

/-- The loop over the answers passes over the records that `ttl_offsets` finds. -/
theorem recordFields_of_readAnswers {answers : Nat} : ∀ {p : Nat} {out : List IpAddr} {t : UInt32}
    {result : List IpAddr × UInt32}, readAnswers m qtype answers p out t = .ok result →
      ∃ fields, recordFields m answers p = .ok fields := by
  induction answers with
  | zero => exact fun _ => ⟨[], rfl⟩
  | succ answers ih =>
    intro p out t result h
    have hparts := h
    rw [readAnswers] at hparts
    simp only [bind_ok_iff, bailIf_ok_iff, Nat.not_lt] at hparts
    obtain ⟨q, hname, -, hfixed, kind, hkind, ttl, httl, length, hlength, -, hend, -⟩ := hparts
    rw [readAnswers_succ hname hkind httl hlength hend] at h
    obtain ⟨fields, hfields⟩ := ih h
    simp_all [recordFields_succ_ok]

theorem readAnswers_congr (hlen : m'.length = m.length) {answers more : Nat} : ∀ {p : Nat} {fields : List TtlField},
    recordFields m (answers + more) p = .ok fields →
      (∀ i, p ≤ i → (∀ f ∈ fields, i < f.offset ∨ f.offset + 4 ≤ i) → m'[i]? = m[i]?) →
      ∀ out t t', (readAnswers m' qtype answers p out t').map
        Prod.fst = (readAnswers m qtype answers p out t).map Prod.fst := by
  induction answers with
  | zero => exact fun _ _ _ _ _ => rfl
  | succ answers ih =>
    intro p fields h hagree out t t'
    rw [Nat.add_right_comm] at h
    obtain ⟨q, kind, ttl, length, rest, hname, hfixed, hkind, httl, hlength, hend, hrest, rfl⟩ :=
      recordFields_succ_ok.mp h
    obtain ⟨hname', hkind', hlength', hdata, hout⟩ := record_congr hlen hname hkind hlength hrest hagree
    obtain ⟨ttl', httl'⟩ : ∃ ttl', u32At m' (q + 4) = .ok ttl' := u32At_ok_of_le (by omega)
    rw [readAnswers_succ hname hkind httl hlength hend, readAnswers_succ hname' hkind' httl' hlength' (by omega), hdata]
    grind

variable {found : List IpAddr}

theorem answersOf_iff_readAnswers {questions answers : UInt16} {p : Nat}
    (hquestions : u16At m 4 = .ok questions) (hanswers : u16At m 6 = .ok answers)
    (hp : skipQuestions m questions.toNat 12 = .ok p) : (∃ ttl, answersOf qtype m = .ok (found, ttl)) ↔
      ∃ ttl, readAnswers m qtype answers.toNat p [] 0xffffffff = .ok (found, ttl) := by
  rw [answersOf_ok_iff]
  simp_all

/-- Messages that agree outside the ids and the TTLs answer with the same addresses. -/
theorem answersOf_congr (hlen : m'.length = m.length) {questions answers : UInt16} {more p : Nat}
    {fields : List TtlField} (hquestions : u16At m 4 = .ok questions) (hanswers : u16At m 6 = .ok answers)
    (hp : skipQuestions m questions.toNat 12 = .ok p) (hfields : recordFields m (answers.toNat + more) p = .ok fields)
    (hagree : ∀ i, 2 ≤ i → (∀ f ∈ fields, i < f.offset ∨ f.offset + 4 ≤ i) → m'[i]? = m[i]?) (found : List IpAddr) :
    (∃ ttl, answersOf qtype m' = .ok (found, ttl)) ↔ ∃ ttl, answersOf qtype m = .ok (found, ttl) := by
  have hle := skipQuestions_le hp
  have hin := (recordFields_placed hfields).1
  have hfront : ∀ i, 2 ≤ i → i < p → m'[i]? = m[i]? := fun i hi hip => hagree i hi fun f hf => by
    have := (hin f hf).1
    omega
  have hheader : ∀ i, 2 ≤ i → i + 2 ≤ 12 → u16At m' i = u16At m i := fun i hi hi' =>
    u16At_congr fun j hj hj' => hfront j (by omega) (by omega)
  have hp' : skipQuestions m' questions.toNat 12 = .ok p :=
    skipQuestions_congr hlen hp fun i hi hi' => hfront i (by omega) hi'
  have hread' : (∃ ttl, readAnswers m' qtype answers.toNat p [] 0xffffffff = .ok (found, ttl)) ↔
      ∃ ttl, readAnswers m qtype answers.toNat p [] 0xffffffff = .ok (found, ttl) := by
    rw [← map_fst_ok_iff, ← map_fst_ok_iff, readAnswers_congr hlen hfields fun i hi => hagree i (by omega)]
  rw [answersOf_iff_readAnswers ((hheader 4 (by omega) (by omega)).trans hquestions)
    ((hheader 6 (by omega) (by omega)).trans hanswers) hp', answersOf_iff_readAnswers hquestions hanswers hp, hread']

theorem carries_overwriteTtls (g : UInt32 → UInt32) (m : Bytes) (a : IpAddr) :
    Carries (overwriteTtls g m) a ↔ Carries m a := by
  cases h : ttlOffsets m with
  | error e => rw [overwriteTtls, h]
  | ok fields =>
    obtain ⟨-, questions, answers, authorities, additionals, p, hquestions, hanswers, -, -, hp, hfields⟩ :=
      ttlOffsets_ok_iff.mp h
    rw [Nat.add_assoc] at hfields
    have hget : ∀ i, (∀ f ∈ fields, i < f.offset ∨ f.offset + 4 ≤ i) → (overwriteTtls g m)[i]? = m[i]? := by
      rw [overwriteTtls, h]
      exact fun i hi => (foldl_overwriteTtl fields fun f hf => ((ttlOffsets_placed h).1 f hf).1).2 i
        fun f hf _ => hi f hf
    unfold Carries
    simp only [answersOf_congr (overwriteTtls_length g m) hquestions hanswers hp hfields fun i _ => hget i]

theorem answersOf_of_agree (hlen : m'.length = m.length) (hagree : ∀ i, 2 ≤ i → m'[i]? = m[i]?)
    (h : ∃ ttl, answersOf qtype m = .ok (found, ttl)) : ∃ ttl, answersOf qtype m' = .ok (found, ttl) := by
  obtain ⟨questions, answers, p, hquestions, hanswers, hp, ttl, hread⟩ := answersOf_ok_iff.mp h
  obtain ⟨fields, hfields⟩ := recordFields_of_readAnswers hread
  exact (answersOf_congr hlen hquestions hanswers hp
    (show recordFields m (answers.toNat + 0) p = _ from hfields) (fun i hi _ => hagree i hi) found).mpr h

theorem carries_overwrite_id {id : Bytes} (hid : id.length = 2) (hlen : 2 ≤ m.length) (a : IpAddr) :
    Carries (overwrite m 0 id) a ↔ Carries m a := by
  have hlen' : (overwrite m 0 id).length = m.length := overwrite_length (by omega)
  have hagree : ∀ i, 2 ≤ i → (overwrite m 0 id)[i]? = m[i]? := fun i hi => overwrite_get_out (by omega) (by omega)
  constructor
  · rintro ⟨qtype, hqtype, found, hfound, ha⟩
    exact ⟨qtype, hqtype, found, answersOf_of_agree hlen'.symm (fun i hi => (hagree i hi).symm) hfound, ha⟩
  · rintro ⟨qtype, hqtype, found, hfound, ha⟩
    exact ⟨qtype, hqtype, found, answersOf_of_agree hlen' hagree hfound, ha⟩

end

/-! ## The values of a load -/

section
variable {ruleSets : Option CompiledRuleSetMap} {r : DnsResolver} {parsers : Parsers} {o : Outcome}
  {v : CacheValue} {ttl : Nat}

/-- What `exchange` caches is the response without its id, with other TTLs if the rule says so. -/
theorem Exchange.load_ok {x : Exchange} (h : x.load o = .ok (v, ttl)) :
    ∃ response, x.receive o = .ok response ∧ 12 ≤ response.length ∧ v = .wire
      (overwrite (x.rewritten response) 0 [0, 0]) := by
  unfold Exchange.load at h
  simp only [bind_ok_iff] at h
  obtain ⟨response, hresponse, _, hvalid, flags, _, heq⟩ := h
  cases heq
  exact ⟨response, hresponse, validateResponse_ok hvalid, rfl⟩

theorem Exchange.carries_rewritten (x : Exchange) (response : Bytes) (a : IpAddr) :
    Carries (x.rewritten response) a ↔ Carries response a := by
  unfold Exchange.rewritten
  split
  · exact carries_overwriteTtls _ response a
  · rfl

theorem Lookup.load_ok {l : Lookup} (h : l.load r parsers ruleSets o = .ok (v, ttl)) :
    ∃ found, v = .addresses found := by
  obtain ⟨serverType, -, h⟩ := bind_ok_iff.mp h
  split at h
  · obtain ⟨found, -, h⟩ := bind_ok_iff.mp h
    cases h
    exact ⟨_, rfl⟩
  · simp only [bind_ok_iff] at h
    obtain ⟨_, -, response, -, ⟨found, t⟩, -, h⟩ := h
    cases h
    exact ⟨_, rfl⟩

/-- The addresses in the message of an `exchange` are those of the response, however old the value is. -/
theorem Exchange.finish_carries {x x' : Exchange} (h : x'.load o = .ok (v, ttl)) {w : CacheValue}
    (hw : w = v ∨ ∃ elapsed, w = v.aged elapsed) :
    ∃ response m, x'.receive o = .ok response ∧ x.finish w = .ok m ∧ ∀ a, Carries m a ↔ Carries response a := by
  obtain ⟨response, hresponse, hlen, rfl⟩ := Exchange.load_ok h
  have hlen' := x'.rewritten_length response
  have hstored : (overwrite (x'.rewritten response) 0 [0, 0]).length = (x'.rewritten response).length :=
    overwrite_length (by simp only [length_cons, length_nil]; omega)
  have hcarries : ∀ a, Carries (overwrite (x'.rewritten response) 0 [0, 0]) a ↔ Carries response a := by
    intro a
    rw [carries_overwrite_id rfl (by omega), x'.carries_rewritten]
  obtain ⟨b, rfl, hb, hlenb⟩ : ∃ b, w = .wire b ∧ (∀ a, Carries b a ↔ Carries response a) ∧ 2 ≤ b.length := by
    rcases hw with rfl | ⟨elapsed, rfl⟩
    · exact ⟨_, rfl, hcarries, by omega⟩
    · refine ⟨_, rfl, fun a => (carries_overwriteTtls _ _ a).trans (hcarries a), ?_⟩
      rw [ageResponseTtls, overwriteTtls_length]
      omega
  refine ⟨response, overwrite b 0 (beU16 x.requestId), hresponse, if_pos hlenb, fun a => ?_⟩
  rw [carries_overwrite_id (beU16_length _) hlenb, hb]

end

/-! ## The limit -/

def Forward.rule : Forward → Option CompiledDnsRule
  | .exchange x => x.rule
  | .lookup l => l.rule

def Forward.name : Forward → Str
  | .exchange x => x.question.name
  | .lookup l => l.name

def Answer.HandsOut : Answer → IpAddr → Prop
  | .message m, a => Carries m a
  | .addresses found, a => a ∈ found

def Served.HandsOut (x : Served) (a : IpAddr) : Prop := ∃ answer, x.answer = .ok answer ∧ answer.HandsOut a

/-- The address satisfies the limit by itself. -/
def Inside (ruleSets : Option CompiledRuleSetMap) (rule : CompiledDnsRule) (name : Str) (a : IpAddr) : Prop :=
  dnsRuleAddressLimitMatches ruleSets rule name [a] = true

/-- What came from outside keeps to the limit: for `exchange` every address of the response; for a lookup every address
    that was found, unless the limit rejects what was found as a whole. -/
def Reply.Within (r : DnsResolver) (parsers : Parsers) (reply : Reply) (ruleSets : Option CompiledRuleSetMap)
    (rule : CompiledDnsRule) (name : Str) : Prop :=
  match reply.forward with
  | .exchange x => ∀ response, x.receive reply.outcome = .ok response →
    ∀ a, Carries response a → Inside ruleSets rule name a
  | .lookup l => ∀ found ttl, l.load r parsers reply.ruleSets reply.outcome = .ok (.addresses found, ttl) →
      (∀ a ∈ found, Inside ruleSets rule name a) ∨ dnsRuleAddressLimitMatches ruleSets rule name found = false

section
variable {r : DnsResolver} {parsers : Parsers} {a : IpAddr}

/-- The lookups of `lookup_with_options`. -/
def lookupTypes (strategy : Option Str) : List UInt16 :=
  (if strategy = some "ipv6_only".toList then [] else [1]) ++ (if strategy = some "ipv4_only".toList then [] else [28])

theorem mem_prefer_iff {xs : List IpAddr} (f g : IpAddr → Bool) (hor : f a = true ∨ g a = true) :
    a ∈ xs.filter f ++ xs.filter g ↔ a ∈ xs := by
  rw [mem_append, mem_filter, mem_filter, ← and_or_left]
  exact and_iff_left hor

theorem mem_toOption_getD {x : Except Failure (List IpAddr)} :
    a ∈ x.toOption.getD [] ↔ ∃ found, x = .ok found ∧ a ∈ found := by
  cases x <;> simp [Except.toOption]

theorem mem_lookupWithOptions {domain : Str} {options : LookupOptions}
    {lookupType : UInt16 → Except Failure (List IpAddr)} {result : List IpAddr}
    (h : r.lookupWithOptions ruleSets domain options lookupType = .ok result) (a : IpAddr) :
    a ∈ result ↔ ∃ qtype ∈ lookupTypes (r.lookupStrategy ruleSets (normalize domain) options),
      ∃ found, lookupType qtype = .ok found ∧ a ∈ found := by
  unfold DnsResolver.lookupWithOptions at h
  simp only [bind_ok_iff, bailIf_ok_iff] at h
  obtain ⟨-, -, -, -, heq⟩ := h
  obtain rfl := Except.ok.inj heq
  generalize r.lookupStrategy ruleSets (normalize domain) options = strategy
  have hfamily : a.isIpv4 = true ∨ a.isIpv6 = true := by cases a <;> simp [IpAddr.isIpv4, IpAddr.isIpv6]
  -- the preference only moves addresses
  have horder : ∀ xs : List IpAddr,
      (a ∈ if strategy = some "prefer_ipv4".toList then xs.filter IpAddr.isIpv4 ++ xs.filter IpAddr.isIpv6
        else if strategy = some "prefer_ipv6".toList then xs.filter IpAddr.isIpv6 ++ xs.filter IpAddr.isIpv4
          else xs) ↔ a ∈ xs := by
    intro xs
    split
    · exact mem_prefer_iff _ _ hfamily
    · split
      · exact mem_prefer_iff _ _ hfamily.symm
      · rfl
  rw [horder, mem_sortDedup, mem_append, mem_toOption_getD, mem_toOption_getD]
  simp only [lookupTypes, mem_append, or_and_right, exists_or]
  refine or_congr ?_ ?_
  · split <;> simp
  · split <;> simp

/-- A lookup hands out what was found, if the limit lets it pass as a whole. -/
theorem Lookup.handsOut_iff {l : Lookup} {rule : CompiledDnsRule}
    (hrule : l.rule = some rule) (hlimit : dnsRuleHasAddressLimit ruleSets rule = true)
    (found : List IpAddr) (a : IpAddr) :
    Served.HandsOut ⟨.lookup l, ruleSets, .addresses found⟩ a ↔
      dnsRuleAddressLimitMatches ruleSets rule l.name found = true ∧ a ∈ found := by
  simp only [Served.HandsOut, Served.answer, Forward.finish, Lookup.finish, hrule, hlimit, true_and]
  cases dnsRuleAddressLimitMatches ruleSets rule l.name found with
  | true => exact ⟨fun ⟨answer, heq, ha⟩ => by cases heq; exact ⟨rfl, ha⟩, fun ha => ⟨_, rfl, ha.2⟩⟩
  | false => exact ⟨fun ⟨answer, heq, _⟩ => (nomatch heq), nofun⟩

theorem CacheValue.aged_addresses {v : CacheValue}
    (h : v = .addresses found ∨ ∃ elapsed, v = (CacheValue.addresses found).aged elapsed) : v = .addresses found := by
  rcases h with rfl | ⟨elapsed, rfl⟩ <;> rfl

end

/-- The rule-set `s` holds the prefix 192.168.0.0/16. -/
def privateSets : CompiledRuleSetMap :=
  AList.insert ['s'] [.node { cidrs := [⟨.v4 #v[192, 168, 0, 0], 16⟩] } none [] []] ∅

/-- A rule that sends names of that rule-set to the server `u`. -/
def limitedRule : CompiledDnsRule := .node ⟨{ ruleSet := [['s']], server := some ['u'] }, [], [], [], [], []⟩ none [] []

def limitedResolver : DnsResolver :=
  { servers := AList.insert ['u'] "udp".toList ∅, rules := [limitedRule], finalTag := ['u'] }

/-- The addresses 192.168.0.1 and 8.8.8.8 for `a`. -/
def twoAddresses : Bytes :=
  [0, 7, 0x81, 0x80, 0, 1, 0, 2, 0, 0, 0, 0, 1, 97, 0, 0, 1, 0, 1,
    0xc0, 12, 0, 1, 0, 1, 0, 0, 0, 60, 0, 4, 192, 168, 0, 1,
    0xc0, 12, 0, 1, 0, 1, 0, 0, 0, 60, 0, 4, 8, 8, 8, 8]

def noParsers : Parsers := ⟨fun _ => none, fun _ => none⟩

/-- The lookup of `a`, as it is forwarded. -/
def limitedLookup : Forward :=
  .lookup
    { name := ['a'], qtype := 1, rule := some limitedRule, serverTag := some ['u'], clientSubnet := none,
      rewriteTtl := none, disableCache := false }

/-- The `exchange` of a query for `a`, as it is forwarded. -/
def limitedExchange : Forward :=
  .exchange
    { requestId := 7, question := ⟨['a'], 1, 19⟩, rule := some limitedRule, serverTag := ['u'],
      serverType := "udp".toList, wire := queryForA }

/-- A call by itself that is given the two addresses. -/
def limitedRun (call : DnsCall) : Option (Pool Calls.Shared Calls.Thread) :=
  run (Calls.step limitedResolver noParsers) ⟨.start 8 false (some privateSets), []⟩
    (Calls.answeredCall call { id := 7, host := .ok [], upstream := .ok twoAddresses })

theorem limitedRun_served {call : DnsCall} {f : Forward} {v : CacheValue} {ttl : Nat}
    (hstart : limitedResolver.start noParsers (some privateSets) call = .ok (.inr f)) (hcache : f.disableCache = false)
    (hload : f.load limitedResolver noParsers (some privateSets)
      { id := 7, host := .ok [], upstream := .ok twoAddresses } = .ok (v, ttl)) :
    ∃ p, limitedRun call = some p ∧ ⟨f, some privateSets, v⟩ ∈ p.shared.served := by
  obtain ⟨p, hrun, hserved, -⟩ := Calls.run_answeredCall hstart hcache hload
  exact ⟨p, hrun, hserved ▸ mem_singleton_self _⟩

theorem limitedLookup_served : ∃ p, limitedRun (.lookup ['a'] 1 {}) = some p ∧
    ⟨limitedLookup, some privateSets, .addresses [.v4 #v[192, 168, 0, 1], .v4 #v[8, 8, 8, 8]]⟩ ∈ p.shared.served :=
  limitedRun_served rfl rfl rfl

theorem limitedExchange_served : ∃ p, limitedRun (.exchange queryForA) = some p ∧
    ⟨limitedExchange, some privateSets, .wire (overwrite twoAddresses 0 [0, 0])⟩ ∈ p.shared.served :=
  limitedRun_served rfl rfl rfl

end Xhttp.Dns
