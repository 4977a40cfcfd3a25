import Xhttp.Dns.Answers

/- Whether an answer belongs to its question. `validate_response` and `parse_response` in `src/dns/message.rs` compare
   the id and the flags of a response with those of the query; its question section is passed over.

   A response comes from outside: a late answer to an earlier query under the same id is one of the messages that
   `upstream` may be. -/
namespace Xhttp.Dns
open Xhttp.Lib Xhttp.Routing Vless List Checked

/-- The question of a call, the name as `parse_question` returns it. -/
def Forward.question : Forward → Str × UInt16
  | .exchange x => (x.question.name, x.question.qtype)
  | .lookup l => (normalize l.name, l.qtype)

/-- The load of the call is given this response by its upstream, and the response passes the checks. -/
def Forward.Takes (r : DnsResolver) (parsers : Parsers) (ruleSets : Option CompiledRuleSetMap) (o : Outcome)
    (response : Bytes) : Forward → Prop
  | .exchange x => x.serverType ≠ "local" ∧
      (∃ timeout, (ruleItem x.rule DnsItems.timeout).mapM parseDuration = .ok timeout) ∧
      o.upstream = .ok response ∧ validateResponse x.requestId response = .ok ()
  | .lookup l => (∃ serverType, l.serverType r ruleSets = .ok serverType ∧ serverType ≠ "local") ∧
      (∃ request, buildQueryWithSubnet parsers o.id l.name l.qtype l.clientSubnet = .ok request) ∧
      o.upstream = .ok response ∧ ∃ result, parseResponse o.id l.qtype response = .ok result

/-- The response behind the reply asks the question of the call it was loaded for. -/
def Reply.Bound (r : DnsResolver) (parsers : Parsers) (reply : Reply) : Prop :=
  ∀ response, reply.forward.Takes r parsers reply.ruleSets reply.outcome response →
    Asks response reply.forward.question.1 reply.forward.question.2

namespace Calls

/-- Every response that was accepted asks its question, and what is cached for a call or was returned by it comes from
    such a response to the question of the call. -/
structure Bound (r : DnsResolver) (parsers : Parsers) (s : Shared) : Prop where
  accepted : ∀ reply ∈ s.replies, reply.Bound r parsers
  cached : ∀ f, Started r parsers f → ∀ e, s.inner.cache.entries.lookup f.key = some e →
    ∃ reply ∈ s.replies, reply.Bound r parsers ∧ reply.forward.question = f.question ∧ e.value = reply.value
  returned : ∀ x ∈ s.served, ∃ reply ∈ s.replies, reply.Bound r parsers ∧ reply.forward.question = x.forward.question ∧
    (x.value = reply.value ∨ ∃ elapsed, x.value = reply.value.aged elapsed)

/-- The call whose `load` waits. -/
def Thread.loads : Thread → Option Forward
  | .direct f | .cached f (.load _ _) => some f
  | _ => none

/-- A response that arrives for a load and passes its checks asks the question of the call. -/
def OwnQuestion (r : DnsResolver) (parsers : Parsers) (p : Pool Shared Thread) : Pool.Event Thread Choice → Prop
  | .act i (.loaded o) => ∀ t f, p.threads[i]? = some t → t.loads = some f → ∀ response,
      f.Takes r parsers p.shared.ruleSets o response → Asks response f.question.1 f.question.2
  | _ => True

section
variable {r : DnsResolver} {parsers : Parsers}

/-! ## The question in the key -/

variable {q : Question} {wire : Bytes} {x : Exchange} {f : Forward} {ts : List Thread} {e : Pool.Event Thread Choice}

theorem parseQuestion_addClientSubnet {request : Bytes} {subnet : Str}
    (hq : parseQuestion request = .ok q) (h : addClientSubnet parsers request subnet = .ok wire) :
    parseQuestion wire = .ok q := by
  obtain ⟨_, labels, _, -, -, -, hheader, -, hend, hle, -⟩ := parseQuestion_ok_iff.mp hq
  unfold addClientSubnet at h
  simp only [bind_ok_iff] at h
  obtain ⟨-, -, -, -, -, -, h⟩ := h
  unfold appendClientSubnetOpt at h
  simp only [bind_ok_iff] at h
  obtain ⟨_, -, _, -, _, -, h⟩ := h
  obtain rfl := Except.ok.inj h
  have hlen : (overwrite request 10 (beU16 1)).length = request.length :=
    overwrite_length (by rw [beU16_length]; omega)
  simp only [append_assoc]
  refine parseQuestion_congr hq (by rw [length_append, hlen]; omega) fun i hi hpart => ?_
  rw [getElem?_append_left (by omega), overwrite_get_out (by rw [beU16_length]; omega) (by rw [beU16_length]; omega)]

theorem parseQuestion_canonicalQuery (hq : parseQuestion wire = .ok q) :
    parseQuestion (canonicalQuery wire) = .ok q := by
  obtain ⟨_, labels, _, -, -, -, hheader, -, -, hle, -⟩ := parseQuestion_ok_iff.mp hq
  rw [canonicalQuery, if_pos (by omega)]
  have hlen : (overwrite wire 0 [0, 0]).length = wire.length := overwrite_length (by simpa using by omega)
  grind [parseQuestion_congr, overwrite_get_out]

theorem exchangeForward_question {request : Bytes} {id : UInt16} {rule : Option CompiledDnsRule}
    (hq : parseQuestion request = .ok q) (h : r.exchangeForward parsers request q id rule = .ok x) :
    parseQuestion (canonicalQuery x.wire) = .ok x.question := by
  unfold DnsResolver.exchangeForward at h
  simp only [bind_ok_iff] at h
  obtain ⟨serverType, -, wire, hwire, h⟩ := h
  obtain rfl := Except.ok.inj h
  grind [parseQuestion_canonicalQuery, DnsResolver.exchangeWire, parseQuestion_addClientSubnet, Except.ok.inj]

theorem map_inr_ok {α β : Type} {y : Except Failure β} {x : β}
    (h : y.map Sum.inr = .ok (Sum.inr x : α ⊕ β)) : y = .ok x := by
  cases y with
  | error e => cases h
  | ok x' => cases h; rfl

theorem map_inl_ne {α β : Type} {y : Except Failure α} {x : β} : y.map Sum.inl ≠ .ok (Sum.inr x : α ⊕ β) := by
  cases y <;> nofun

theorem Started.wire_question (h : Started r parsers (.exchange x)) :
    parseQuestion (canonicalQuery x.wire) = .ok x.question := by
  obtain ⟨ruleSets, call, hstart⟩ := h
  cases call with
  | lookup name qtype options =>
    rw [DnsResolver.start] at hstart
    cases hlookup : r.lookupStart parsers ruleSets name qtype options with
    | error e => rw [hlookup] at hstart; cases hstart
    | ok result => rw [hlookup] at hstart; cases result <;> cases hstart
  | exchange request =>
    have hexchange : r.exchangeStart parsers ruleSets request = .ok (.inr x) := by
      rw [DnsResolver.start] at hstart
      cases hexchange : r.exchangeStart parsers ruleSets request with
      | error e => rw [hexchange] at hstart; cases hstart
      | ok result =>
        rw [hexchange] at hstart
        cases result with
        | inl m => cases hstart
        | inr x' => cases hstart; rfl
    unfold DnsResolver.exchangeStart at hexchange
    simp only [bind_ok_iff] at hexchange
    obtain ⟨q, hq, id, -, h⟩ := hexchange
    -- a rule that answers by itself forwards nothing
    have hforward : (r.exchangeForward parsers request q id (r.selectRule ruleSets q.name q.qtype)).map Sum.inr =
        .ok (Sum.inr x : Bytes ⊕ Exchange) := by
      split at h
      · split at h
        · split at h
          · cases h
          · exact absurd h map_inl_ne
        · split at h
          · exact absurd h map_inl_ne
          · next hrule _ _ _ => rwa [hrule]
      · exact h
    exact exchangeForward_question hq (map_inr_ok hforward)

theorem question_of_key {f' : Forward} (hf : Started r parsers f) (hf' : Started r parsers f') (h : f.key = f'.key) :
    f.question = f'.question := by
  cases f with
  | exchange x =>
    cases f' with
    | exchange x' =>
      simp only [Forward.key, Exchange.key, CacheKey.wire.injEq] at h
      have hq := hf.wire_question
      rw [h.1, hf'.wire_question] at hq
      rw [Forward.question, Forward.question, Except.ok.inj hq]
    | lookup l => cases h
  | lookup l =>
    cases f' with
    | exchange x => cases h
    | lookup l' =>
      simp_all [Forward.key, Lookup.key, CacheKey.lookup.injEq, Forward.question]

/-! ## The record of loads -/

theorem load_of_takes {ruleSets : Option CompiledRuleSetMap} {o : Outcome} {response : Bytes}
    (h : f.Takes r parsers ruleSets o response) : ∃ v ttl, f.load r parsers ruleSets o = .ok (v, ttl) := by
  cases f with
  | exchange x =>
    obtain ⟨hserver, ⟨timeout, htimeout⟩, hupstream, hvalid⟩ := h
    have hreceive : x.receive o = .ok response := by
      simp only [Exchange.receive, if_neg hserver, htimeout, bind, Except.bind, hupstream]
    simp only [Forward.load, Exchange.load, hreceive, hvalid, bind, Except.bind]
    have hheader := validateResponse_ok hvalid
    have hlen := x.rewritten_length response
    rw [index_of_lt (show 3 < (x.rewritten response).length by omega)]
    exact ⟨_, _, rfl⟩
  | lookup l =>
    obtain ⟨⟨serverType, hserver, hremote⟩, ⟨request, hrequest⟩, hupstream, ⟨found, ttl⟩, hparse⟩ := h
    simp only [Forward.load, Lookup.load, hserver, hrequest, hupstream, hparse, if_neg hremote, bind, Except.bind]
    exact ⟨_, _, rfl⟩

theorem cached_replies {s s' : Shared} {t : Singleflight.Thread} {c : Singleflight.Choice}
    (h : s.cached r f t c = some (s', ts)) : s'.replies = s.replies := by
  obtain ⟨x, -, heq⟩ := Option.map_eq_some_iff.mp h
  cases heq
  rfl

/-- The record grows by what a load makes of its outcome. -/
theorem replies_act {s s' : Shared} {t : Thread} {c : Choice} (h : act r parsers s t c = some (s', ts)) :
    (s'.replies = s.replies ∧ ∀ f o, t.loads = some f → c ≠ .loaded o) ∨
      ∃ f o, t.loads = some f ∧ c = .loaded o ∧ s'.replies = (s.receive r parsers f o).replies := by
  unfold act at h
  split at h
  · grind
  · next f o =>
    cases h
    exact .inr ⟨f, o, rfl, rfl, rfl⟩
  · cases h
    exact .inl ⟨rfl, nofun⟩
  · exact .inl ⟨cached_replies h, nofun⟩
  · next f key flight o => exact .inr ⟨f, o, rfl, rfl, cached_replies h⟩
  · exact .inl ⟨cached_replies h, nofun⟩
  · cases h
    exact .inl ⟨rfl, nofun⟩
  · cases h
    exact .inl ⟨rfl, nofun⟩
  · cases h

theorem replies_sub_step {p p' : Pool Shared Thread} (h : step r parsers p e = some p') :
    ∀ reply ∈ p.shared.replies, reply ∈ p'.shared.replies := by
  intro reply hmem
  rcases Pool.step_eq_some h with ⟨t, -, -, rfl⟩ | ⟨i, c, t, s', ts, rest, -, -, -, hact, rfl⟩
  · exact hmem
  · rcases replies_act hact with ⟨hsame, -⟩ | ⟨f, o, -, -, hreceive⟩
    · exact hsame ▸ hmem
    · exact hreceive ▸ p.shared.receive_sub f o reply hmem

theorem replies_sub_run {es : List (Pool.Event Thread Choice)} {p p' : Pool Shared Thread}
    (h : run (step r parsers) p es = some p') : ∀ reply ∈ p.shared.replies, reply ∈ p'.shared.replies := by
  intro reply hmem
  exact run_inv (fun q => reply ∈ q.shared.replies) (fun _ => True)
    (fun _ _ _ _ hq hstep => replies_sub_step hstep reply hq) (fun _ _ => trivial) hmem h

/-- Given that all accepted responses asked their questions, the next one does exactly if the event says so. -/
theorem accepted_step {p p' : Pool Shared Thread}
    (hI : ∀ reply ∈ p.shared.replies, reply.Bound r parsers) (h : step r parsers p e = some p') :
    OwnQuestion r parsers p e ↔ ∀ reply ∈ p'.shared.replies, reply.Bound r parsers := by
  rcases Pool.step_eq_some h with ⟨t, rfl, -, rfl⟩ | ⟨i, c, t, s', ts, rest, rfl, ht, -, hact, rfl⟩
  · exact iff_of_true trivial hI
  · rcases replies_act hact with ⟨hsame, hnone⟩ | ⟨f, o, hloads, rfl, hreceive⟩
    · refine iff_of_true ?_ (by rw [hsame]; exact hI)
      cases c with
      | go | dropped => trivial
      | loaded o =>
        intro t' f ht' hloads
        cases ht.symm.trans ht'
        exact absurd rfl (hnone f o hloads)
    · have hown : OwnQuestion r parsers p (.act i (.loaded o)) ↔ ∀ response,
          f.Takes r parsers p.shared.ruleSets o response → Asks response f.question.1 f.question.2 := by
        constructor
        · exact fun hall => hall t f ht hloads
        · intro hall t' f' ht' hloads'
          simp_all
      rw [hown, hreceive]
      unfold Shared.receive
      split
      · rw [forall_mem_append, forall_mem_singleton]
        exact ⟨fun hb => ⟨hI, hb⟩, fun hb => hb.2⟩
      · next error hload =>
        grind [load_of_takes]

/-- **Answers and questions.** In every schedule, what is returned and cached comes from responses to its own question,
    and every other response is rejected, exactly if no response that passes the checks of a load asks another
    question than the call. -/
theorem own_question_iff {capacity : Nat} {disableExpire : Bool} {ruleSets : Option CompiledRuleSetMap}
    {es : List (Pool.Event Thread Choice)} {p : Pool Shared Thread}
    (h : run (step r parsers) ⟨.start capacity disableExpire ruleSets, []⟩ es = some p) :
    Along (step r parsers) (OwnQuestion r parsers) ⟨.start capacity disableExpire ruleSets, []⟩ es ↔
      Bound r parsers p.shared := by
  have htraced := traced h
  have haccepted : Along (step r parsers) (OwnQuestion r parsers) ⟨.start capacity disableExpire ruleSets, []⟩ es ↔
      ∀ reply ∈ p.shared.replies, reply.Bound r parsers := by
    rw [along_iff_forall_states (fun _ => True)
      (fun q : Pool Shared Thread => ∀ reply ∈ q.shared.replies, reply.Bound r parsers)
      (OwnQuestion r parsers) (fun _ _ _ _ _ => trivial) (fun _ _ _ _ hI hstep => accepted_step hI hstep) trivial
      (fun reply hmem => (not_mem_nil hmem).elim) h]
    constructor
    · exact fun hall => hall es [] p (append_nil es).symm h
    · grind [run_append_eq_some, replies_sub_run]
  rw [haccepted]
  refine ⟨fun hall => ⟨hall, ?_, ?_⟩, Bound.accepted⟩
  · intro f hf e he
    obtain ⟨reply, hmem, hkey, hvalue⟩ := htraced.entries f.key e he
    exact ⟨reply, hmem, hall reply hmem, question_of_key (htraced.replies reply hmem).1 hf hkey, hvalue.symm⟩
  · intro x hx
    obtain ⟨hstarted, w, ⟨reply, hmem, hkey, rfl⟩, hvalue⟩ := htraced.served x hx
    exact ⟨reply, hmem, hall reply hmem, question_of_key (htraced.replies reply hmem).1 hstarted hkey, hvalue⟩

end

def plainResolver : DnsResolver := { servers := AList.insert ['u'] "udp" ∅, rules := [], finalTag := ['u'] }

/-- Nothing is read from text. -/
def unread : Parsers := ⟨fun _ => none, fun _ => none⟩

/-- The address 1.2.3.4 for `b`, with the id 7. -/
def answerForB : Bytes :=
  [0, 7, 0x81, 0x80, 0, 1, 0, 1, 0, 0, 0, 0, 1, 98, 0, 0, 1, 0, 1, 0xc0, 12, 0, 1, 0, 1, 0, 0, 0, 60, 0, 4, 1, 2, 3, 4]

def lookupOfA : Forward :=
  .lookup
    { name := ['a'], qtype := 1, rule := none, serverTag := none, clientSubnet := none, rewriteTtl := none,
      disableCache := false }

def exchangeForA : Forward :=
  .exchange
    { requestId := 7, question := ⟨['a'], 1, 19⟩, rule := none, serverTag := ['u'], serverType := "udp",
      wire := queryForA }

/-- A call by itself that is given the answer for `b`. -/
def runWithB (call : DnsCall) : Option (Pool Shared Thread) :=
  run (step plainResolver unread) ⟨.start 8 false none, []⟩
    (answeredCall call { id := 7, host := .ok [], upstream := .ok answerForB })

/-- What a call for `a` returns and leaves in the cache, given a response with a question for `b`. -/
def HoldsB (call : DnsCall) (f : Forward) (value : CacheValue) : Prop :=
  ∃ p, runWithB call = some p ∧ f.question = (['a'], 1) ∧ ⟨f, none, value⟩ ∈ p.shared.served ∧
    ∃ e, p.shared.inner.cache.entries.lookup f.key = some e ∧ e.value = value

theorem holdsB {call : DnsCall} {f : Forward} {value : CacheValue} {ttl : Nat} (hquestion : f.question = (['a'], 1))
    (hstart : plainResolver.start unread none call = .ok (.inr f)) (hcache : f.disableCache = false)
    (hload : f.load plainResolver unread none { id := 7, host := .ok [], upstream := .ok answerForB } =
      .ok (value, ttl))
    (hstored : ∃ e, (((DnsCache.new 8 false).insert 0 f.key value ttl).entries.lookup f.key) = some e ∧ e.value = value)
    (httl : ttl ≠ 0) : HoldsB call f value := by
  obtain ⟨p, hrun, hserved, -, hcache'⟩ := run_answeredCall hstart hcache hload
  refine ⟨p, hrun, hquestion, hserved ▸ mem_singleton_self _, ?_⟩
  rw [hcache', Singleflight.Inner.store]
  simp only [plainResolver, ne_eq, httl, not_false_eq_true, and_self, if_true]
  exact hstored

theorem lookup_holdsB : HoldsB (.lookup ['a'] 1 {}) lookupOfA (.addresses [.v4 #v[1, 2, 3, 4]]) :=
  holdsB rfl rfl rfl rfl ⟨_, rfl, rfl⟩ (by decide)

theorem own_question_iff_lookup :
    ∃ p, runWithB (.lookup ['a'] 1 {}) = some p ∧
      (Along (step plainResolver unread) (OwnQuestion plainResolver unread) ⟨.start 8 false none, []⟩
          (answeredCall (.lookup ['a'] 1 {}) { id := 7, host := .ok [], upstream := .ok answerForB }) ↔
        Bound plainResolver unread p.shared) := by
  obtain ⟨p, hrun, -⟩ := lookup_holdsB
  exact ⟨p, hrun, own_question_iff hrun⟩

/-- A response with a question for `b` is returned and cached as the answer for `a`, by a lookup and by an
    `exchange`. -/
theorem another_question_accepted :
    Asks answerForB ['b'] 1 ∧ ¬ Asks answerForB ['a'] 1 ∧
    HoldsB (.lookup ['a'] 1 {}) lookupOfA (.addresses [.v4 #v[1, 2, 3, 4]]) ∧
    HoldsB (.exchange queryForA) exchangeForA (.wire (overwrite answerForB 0 [0, 0])) := by
  refine ⟨⟨rfl, _, rfl, rfl, rfl⟩, ?_, lookup_holdsB, ?_⟩
  · rintro ⟨-, q, hq, hname, -⟩
    cases hq
    exact absurd hname (by decide)
  · exact holdsB rfl rfl rfl rfl ⟨_, rfl, rfl⟩ (by decide)

end Calls

end Xhttp.Dns
