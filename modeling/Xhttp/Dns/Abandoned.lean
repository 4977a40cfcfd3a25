import Xhttp.Dns.Multiplexer

/- The ids of abandoned queries. `exchange` and `lookup_type` in `src/dns/mod.rs` await
   `server.query` under a timeout of their own, which is not longer than the one inside
   `UdpMultiplexer::query`; when it elapses first, the future of the query is dropped where it
   waits. `query` takes its id out of `pending` on its own error paths only, not when it is
   dropped. -/
namespace Xhttp.Dns.Multiplexer
open Xhttp.Lib List

/-- Every id in `pending` is that of a query whose future is alive. -/
def Queries.OnlyLive (p : Queries) : Prop :=
  ∀ id, id ∈ p.shared.pending → ∃ t ∈ p.threads, t.registered p.shared = some id

/-- The event drops a query that is registered. -/
def Queries.DropsRegistered (p : Queries) : Event → Prop
  | .query (.act i .dropped) => ∃ id, p.threads[i]?.bind (Thread.registered p.shared) = some id
  | _ => False

instance (p : Queries) : ∀ e, Decidable (p.DropsRegistered e)
  | .query (.act i .dropped) =>
    decidable_of_iff ((p.threads[i]?.bind (Thread.registered p.shared)).isSome) Option.isSome_iff_exists
  | .datagram _ | .recvError _ | .reader | .query (.spawn _) | .query (.act _ .go)
  | .query (.act _ (.sendError _)) | .query (.act _ .elapsed) => .isFalse (fun h => h)

/-! ## Senders that were used are not in `pending` -/

/-- The senders the reader has taken out of `pending` and not used yet. -/
def Reader.senders : Reader → List Nat
  | .deliver channel _ => [channel]
  | .fail channels _ => channels
  | .recv | .dispatch _ _ | .drain _ | .stopped => []

/-- A sender in `pending` has sent nothing and was not dropped, and the reader does not hold it. -/
structure Unused (s : Mux) : Prop where
  silent : ∀ id channel, s.pending.lookup id = some channel →
    s.channels[channel]?.bind Channel.poll = none
  taken : ∀ c ∈ s.reader.senders, c < s.channels.length ∧ ∀ id, s.pending.lookup id ≠ some c

section Unused
variable {ts : List Thread} {s s' : Mux}

variable (h : Unused s)
include h

/-- A channel that is not in `pending` changes, and ids are taken out of `pending`. -/
theorem Unused.modify {channel : Nat} {g : Channel → Channel}
    (hchannels : s'.channels = s.channels.modify channel g)
    (hpending : ∀ id c, s'.pending.lookup id = some c → s.pending.lookup id = some c ∧ c ≠ channel)
    (hreader : ∀ c ∈ s'.reader.senders, c ∈ s.reader.senders ∨
      c < s.channels.length ∧ ∀ id, s'.pending.lookup id ≠ some c) : Unused s' where
  silent := by
    intro id c hc
    obtain ⟨hold, hne⟩ := hpending id c hc
    rw [hchannels, getElem?_modify_ne _ _ (Ne.symm hne)]
    exact h.silent id c hold
  taken := by
    intro c hc
    rw [hchannels, length_modify]
    rcases hreader c hc with hold | hnew
    · exact ⟨(h.taken c hold).1, fun id hid => (h.taken c hold).2 id (hpending id c hid).1⟩
    · exact hnew

theorem Unused.read (hsound : Sound s ts) (hread : s.read = some s') : Unused s' := by
  have htaken := h.taken
  unfold Mux.read at hread
  split at hread
  · split at hread
    · cases hread
      exact ⟨h.silent, nofun⟩
    · split at hread
      · cases hread
        exact ⟨h.silent, nofun⟩
      · next id hid channel hlookup =>
        cases hread
        refine ⟨fun id' c hc => h.silent id' c (Map.lookup_of_lookup_erase hc), fun c hc => ?_⟩
        cases mem_singleton.mp hc
        refine ⟨hsound.lt_of_lookup hlookup, fun id' hid' => ?_⟩
        cases hsound.lookup_inj hlookup (Map.lookup_of_lookup_erase hid')
        rw [AList.lookup_erase] at hid'
        cases hid'
  · next channel length hreader =>
    cases hread
    rw [hreader] at htaken
    refine h.modify rfl (fun id c hc => ⟨hc, ?_⟩) nofun
    rintro rfl
    exact (htaken c mem_cons_self).2 id hc
  · cases hread
    refine ⟨nofun, fun c hc => ?_⟩
    exact ⟨hsound.known c (mem_append_left _ hc), nofun⟩
  · next channel channels message hreader =>
    cases hread
    rw [hreader] at htaken
    refine h.modify rfl (fun id c hc => ⟨hc, ?_⟩) fun c hc => .inl ?_
    · rintro rfl
      exact (htaken c mem_cons_self).2 id hc
    · rw [hreader]
      exact mem_cons_of_mem _ hc
  · cases hread
    exact ⟨h.silent, nofun⟩
  · cases hread
  · cases hread

theorem Unused.unregister (hsound : Sound s ts) (id : UInt16) : Unused (s.unregister id) := by
  unfold Mux.unregister
  split
  · exact h
  · next channel hlookup =>
    refine h.modify rfl (fun id' c hc => ⟨Map.lookup_of_lookup_erase hc, ?_⟩) fun c hc => .inl hc
    rintro rfl
    cases hsound.lookup_inj hlookup (Map.lookup_of_lookup_erase hc)
    rw [AList.lookup_erase] at hc
    cases hc

theorem Unused.register (hsound : Sound s ts) {request : Bytes} {id : UInt16} {nextId : UInt32} :
    Unused { s with nextId, pending := s.pending.insert id s.channels.length,
                    channels := s.channels ++ [⟨request, none, false⟩] } where
  silent := by
    intro id' c hc
    obtain ⟨rfl, rfl⟩ | ⟨-, hc⟩ := Map.lookup_insert_cases hc
    · rw [getElem?_concat_length]
      rfl
    · rw [getElem?_append_left (hsound.lt_of_lookup hc)]
      exact h.silent id' c hc
  taken := by
    intro c hc
    obtain ⟨hlt, hnot⟩ := h.taken c hc
    refine ⟨by rw [length_append]; exact Nat.lt_add_right _ hlt, fun id' hid' => ?_⟩
    obtain ⟨rfl, rfl⟩ | ⟨-, hid'⟩ := Map.lookup_insert_cases hid'
    · exact Nat.lt_irrefl _ hlt
    · exact hnot id' hid'

theorem Unused.act {t : Thread} {c : Choice} (hsound : Sound s (t :: ts)) {ts' : List Thread}
    (ha : Acts s t c s' ts') : Unused s' := by
  cases ha with
  | registers => exact h.register hsound
  | unregisters =>
    have hafter := h.unregister hsound
    exact ⟨(hafter _).silent, (hafter _).taken⟩
  | _ => exact ⟨h.silent, h.taken⟩

end Unused

variable {e : Event} {s : Mux}

theorem unused_step {p p' : Queries} (hsound : Sound p.shared p.threads) (h : Unused p.shared)
    (hstep : p.step e = some p') : Unused p'.shared := by
  cases e with
  | datagram bytes =>
    obtain ⟨s', hrecv, rfl⟩ := Option.map_eq_some_iff.mp hstep
    cases reads_of_recv hrecv
    exact ⟨h.silent, nofun⟩
  | recvError error =>
    obtain ⟨s', hrecv, rfl⟩ := Option.map_eq_some_iff.mp hstep
    cases reads_of_recvError hrecv
    exact ⟨h.silent, nofun⟩
  | reader =>
    obtain ⟨s', hread, rfl⟩ := Option.map_eq_some_iff.mp hstep
    exact h.read hsound hread
  | query e =>
    rcases Pool.step_eq_some hstep with ⟨t, -, -, rfl⟩ | ⟨i, c, t, s', ts, rest, -, -, hp, hact, rfl⟩
    · exact h
    · exact h.act (hsound.perm hp) (acts_of_act hact)

/-! ## Ids of queries that are alive -/

/-- The id and the channel a query has registered. -/
def Thread.entry : Thread → Option (UInt16 × Nat)
  | .query _ => none
  | .send channel id _ _ | .unregister channel id _ | .receive channel id _ => some (id, channel)

theorem Thread.registered_iff {t : Thread} {id : UInt16} :
    t.registered s = some id ↔ ∃ channel, t.entry = some (id, channel) ∧ s.pending.lookup id = some channel := by
  cases t with
  | query => simp [registered, entry]
  | send channel id' | unregister channel id' | receive channel id' =>
    rw [registered, entry, Option.ite_none_right_eq_some]
    grind

theorem Queries.OnlyLive.keep {p p' : Queries} (h : p.OnlyLive)
    (hlookup : ∀ id, id ∈ p'.shared.pending → p'.shared.pending.lookup id = p.shared.pending.lookup id)
    (hthreads : ∀ t ∈ p.threads, ∀ id, id ∈ p'.shared.pending → t.registered p.shared = some id →
      ∃ u ∈ p'.threads, u.entry = t.entry) : p'.OnlyLive := by
  intro id hid
  have hold : id ∈ p.shared.pending := by
    rw [← AList.lookup_isSome, ← hlookup id hid, AList.lookup_isSome]
    exact hid
  obtain ⟨t, ht, hreg⟩ := h id hold
  grind [Thread.registered_iff]

theorem Queries.OnlyLive.perm {ts' : List Thread} (hp : ts.Perm ts')
    (h : Queries.OnlyLive ⟨s, ts⟩) : Queries.OnlyLive ⟨s, ts'⟩ :=
  h.keep (fun _ _ => rfl) fun t ht _ _ _ => ⟨t, hp.mem_iff.mp ht, rfl⟩

theorem Mux.mem_unregister {id id' : UInt16} (h : id' ∈ (s.unregister id).pending) :
    id' ≠ id ∧ (s.unregister id).pending.lookup id' = s.pending.lookup id' := by
  grind [Mux.unregister, AList.lookup_eq_none, AList.mem_erase, AList.lookup_erase_ne]

/-- A query whose channel can be polled is not registered any more. -/
theorem Unused.registered_eq_none (h : Unused s) {channel : Nat} {internalId originalId : UInt16}
    (hpoll : s.channels[channel]?.bind Channel.poll ≠ none) :
    (Thread.receive channel internalId originalId).registered s = none := by
  rw [Option.eq_none_iff_forall_ne_some]
  intro id hreg
  obtain ⟨channel', ⟨⟩, hlookup⟩ := Thread.registered_iff.mp hreg
  exact hpoll (h.silent _ channel hlookup)

/-- A query returns only when its channel can be polled. -/
theorem poll_of_receive {s' : Mux} {channel : Nat} {internalId originalId : UInt16}
    (h : act s (.receive channel internalId originalId) .go = some (s', ts)) :
    s.channels[channel]?.bind Channel.poll ≠ none := by
  intro hnone
  simp only [act, hnone] at h
  cases h

/-- The reader takes ids out of `pending` and leaves the others. -/
theorem Reads.lookup {s' : Mux} (h : Reads s e s') {id : UInt16} (hid : id ∈ s'.pending) :
    s'.pending.lookup id = s.pending.lookup id := by
  cases h with
  | takes => exact AList.lookup_erase_ne (AList.mem_erase.mp hid).1
  | drains => cases hid
  | _ => rfl

theorem Queries.OnlyLive.act {s s' : Mux} {t : Thread} {c : Choice} {rest : List Thread}
    (h : Queries.OnlyLive ⟨s, t :: rest⟩) (hunused : Unused s) (hact : act s t c = some (s', ts))
    (hdrop : ∀ id, c = .dropped → t.registered s ≠ some id) : Queries.OnlyLive ⟨s', ts ++ rest⟩ := by
  -- the other queries stay as they are
  have hstay : (∀ id, id ∈ s'.pending → s'.pending.lookup id = s.pending.lookup id) →
      (∀ id, id ∈ s'.pending → t.registered s = some id → ∃ u ∈ ts, u.entry = t.entry) →
      Queries.OnlyLive ⟨s', ts ++ rest⟩ := by
    intro hlookup ht
    refine h.keep hlookup fun u hu id hid hreg => ?_
    rcases mem_cons.mp hu with rfl | hu
    · grind
    · exact ⟨u, mem_append_right _ hu, rfl⟩
  cases acts_of_act hact with
  | rejects | exhausts => exact hstay (fun _ _ => rfl) nofun
  | sends | sendFails | expires => exact hstay (fun _ _ => rfl) fun _ _ _ => ⟨_, mem_cons_self, rfl⟩
  | dropsSend | dropsReceive => exact hstay (fun _ _ => rfl) fun id _ hreg => absurd hreg (hdrop id rfl)
  | unregisters =>
    refine hstay (fun id hid => (Mux.mem_unregister hid).2) fun id hid hreg => ?_
    obtain ⟨channel, ⟨⟩, -⟩ := Thread.registered_iff.mp hreg
    exact absurd rfl (Mux.mem_unregister hid).1
  | receives | receiveFails =>
    refine hstay (fun _ _ => rfl) fun id _ hreg => ?_
    rw [hunused.registered_eq_none (poll_of_receive hact)] at hreg
    cases hreg
  | @registers request originalId id nextId wire hid hselect =>
    intro id' hmem
    by_cases heq : id' = id
    · subst heq
      refine ⟨_, mem_cons_self, Thread.registered_iff.mpr ⟨_, rfl, AList.lookup_insert _⟩⟩
    · obtain ⟨u, hu, hreg⟩ := h id' (((AList.mem_insert _).mp hmem).resolve_left heq)
      obtain ⟨channel, hentry, hlookup⟩ := Thread.registered_iff.mp hreg
      rcases mem_cons.mp hu with rfl | hu
      · cases hentry
      grind [mem_append_right, Thread.registered_iff, AList.lookup_insert_ne]

/-- Dropping a registered query leaves its id behind: no other query is registered there. -/
theorem Sound.not_onlyLive_of_dropped {t : Thread} {rest : List Thread} {id : UInt16}
    (h : Sound s (t :: rest)) (hreg : t.registered s = some id) : ¬ Queries.OnlyLive ⟨s, rest⟩ := by
  intro hlive
  obtain ⟨channel, -, hlookup⟩ := Thread.registered_eq_some hreg
  obtain ⟨u, hu, hreg'⟩ := hlive id (Map.mem_of_lookup hlookup)
  have hnodup := h.registered_nodup
  rw [filterMap_cons_some hreg] at hnodup
  exact (nodup_cons.mp hnodup).1 (mem_filterMap.mpr ⟨u, hu, hreg'⟩)

theorem onlyLive_step_iff {p p' : Queries} (hsound : Sound p.shared p.threads)
    (hunused : Unused p.shared) (h : p.OnlyLive) (hstep : p.step e = some p') :
    ¬ p.DropsRegistered e ↔ p'.OnlyLive := by
  have hreads : ∀ {s'}, Reads p.shared e s' → Queries.OnlyLive ⟨s', p.threads⟩ := fun hread =>
    h.keep (fun _ => hread.lookup) fun t ht _ _ _ => ⟨t, ht, rfl⟩
  cases e with
  | datagram bytes =>
    obtain ⟨s', hrecv, rfl⟩ := Option.map_eq_some_iff.mp hstep
    exact iff_of_true (fun hd => hd) (hreads (reads_of_recv hrecv))
  | recvError error =>
    obtain ⟨s', hrecv, rfl⟩ := Option.map_eq_some_iff.mp hstep
    exact iff_of_true (fun hd => hd) (hreads (reads_of_recvError hrecv))
  | reader =>
    obtain ⟨s', hread, rfl⟩ := Option.map_eq_some_iff.mp hstep
    exact iff_of_true (fun hd => hd) (hreads (reads_of_read hread))
  | query e =>
    rcases Pool.step_eq_some hstep with ⟨t, rfl, -, rfl⟩ | ⟨i, c, t, s', ts, rest, rfl, hi, hp, hact, rfl⟩
    · exact iff_of_true (fun hd => hd)
        (h.keep (fun _ _ => rfl) fun t ht _ _ _ => ⟨t, mem_cons_of_mem _ ht, rfl⟩)
    · constructor
      · intro hnot
        refine (h.perm hp).act hunused hact ?_
        rintro id rfl hreg
        exact hnot ⟨id, by rw [hi]; exact hreg⟩
      · intro hlive hdrop
        cases c with
        | dropped =>
          obtain ⟨id, hreg⟩ := hdrop
          rw [hi] at hreg
          cases acts_of_act hact with
          | dropsSend | dropsReceive => exact (hsound.perm hp).not_onlyLive_of_dropped hreg hlive
        | go | sendError | elapsed => exact hdrop

/-- Along every schedule, `pending` holds only ids of queries whose future is alive if and only
    if no query is dropped while it is registered; then all 65536 ids are free whenever no
    query is alive. -/
theorem only_live_iff (nextId : UInt32) (es : List Event) (p : Queries)
    (hrun : run Queries.step (.start nextId) es = some p) :
    (Along Queries.step (fun q e => ¬ q.DropsRegistered e) (.start nextId) es ↔
      ∀ es₁ es₂ q, es = es₁ ++ es₂ → run Queries.step (.start nextId) es₁ = some q → q.OnlyLive) ∧
    (Along Queries.step (fun q e => ¬ q.DropsRegistered e) (.start nextId) es →
      p.threads = [] → ∀ id, id ∉ p.shared.pending) := by
  have hstart : Sound (Queries.start nextId).shared (Queries.start nextId).threads := sound_run (run_nil _)
  have hiff := along_iff_forall_states
    (fun q : Queries => Sound q.shared q.threads ∧ Unused q.shared) Queries.OnlyLive
    (fun q e => ¬ q.DropsRegistered e)
    (fun q e q' h hstep => ⟨sound_step h.1 hstep, unused_step h.1 h.2 hstep⟩)
    (fun q e q' h hlive hstep => onlyLive_step_iff h.1 h.2 hlive hstep)
    ⟨hstart, nofun, nofun⟩ nofun hrun
  refine ⟨hiff, fun halong hnone id hid => ?_⟩
  obtain ⟨t, ht, -⟩ := hiff.mp halong es [] p (append_nil es).symm hrun id hid
  rw [hnone] at ht
  cases ht

/-- A query is sent, and its caller gives up before an answer or the timeout inside `query`. -/
def abandoned : List Event :=
  [.query (.spawn (.query [0, 7, 1])), .query (.act 0 .go), .query (.act 0 .go), .query (.act 0 .dropped)]

/-- No query is alive, and an id is in use. -/
theorem dropped_id_stays :
    ∃ p, run Queries.step (.start 0) abandoned = some p ∧ p.threads = [] ∧ 0 ∈ p.shared.pending ∧
      ¬ p.OnlyLive := by
  refine ⟨_, rfl, rfl, by decide, fun hlive => ?_⟩
  obtain ⟨t, ht, -⟩ := hlive 0 (by decide)
  cases ht

/-- A query that waits for the timeout inside `query` gives its id back. -/
def expired : List Event :=
  [.query (.spawn (.query [0, 7, 1])), .query (.act 0 .go), .query (.act 0 .go), .query (.act 0 .elapsed),
   .query (.act 0 .go)]

theorem only_live_expired :
    ∃ p, run Queries.step (.start 0) expired = some p ∧
      p.shared.returned = [(some 0, .error .timeout)] ∧ ∀ id, id ∉ p.shared.pending := by
  obtain ⟨p, hrun, hreturned, hthreads⟩ : ∃ p, run Queries.step (.start 0) expired = some p ∧
      p.shared.returned = [(some 0, .error .timeout)] ∧ p.threads = [] := ⟨_, rfl, rfl, rfl⟩
  exact ⟨p, hrun, hreturned, (only_live_iff 0 expired p hrun).2 (by decide) hthreads⟩

end Xhttp.Dns.Multiplexer
