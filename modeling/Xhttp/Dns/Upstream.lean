import Xhttp.Dns.Multiplexer

/- A UDP upstream over time (`Upstream::query` in `src/dns/transport.rs`). The multiplexer is
   made by the first query, in a `OnceCell`, and kept for good; its reader task ends at the
   first error that `recv` reports.

   A query that waits for another one's `get_or_try_init` is an event that comes later. -/
namespace Xhttp.Dns
open Xhttp.Lib Multiplexer List

structure Upstream where
  udp : Option Queries

/-- `connect` is the outcome of `UdpMultiplexer::connect`, should it be called. -/
inductive Upstream.Event where
  | query (request : Bytes) (connect : Except Str UInt32)
  | multiplexer (e : Multiplexer.Event)

def Upstream.step (u : Upstream) : Upstream.Event → Option Upstream
  | .query request connect =>
    match u.udp with
    | some p => (p.step (.query (.spawn (.query request)))).map fun p => ⟨some p⟩
    | none =>
      match connect with
      | .ok nextId => ((Queries.start nextId).step (.query (.spawn (.query request)))).map fun p => ⟨some p⟩
      -- the query returns the error, and the cell stays empty
      | .error _ => some u
  -- a query of the multiplexer is started by `Upstream::query` only
  | .multiplexer (.query (.spawn _)) => none
  | .multiplexer e => u.udp.bind fun p => (p.step e).map fun p => ⟨some p⟩

def Upstream.new : Upstream := ⟨none⟩

def truncatedFlag (response : Bytes) : Bool :=
  match response[2]? with
  | some flags => flags &&& 2 != 0
  | none => false

/-- What the query returns, from what the multiplexer gave: a truncated response is asked for
    again over `stream`. -/
def respond (stream : Bytes → Except Error Bytes) (request : Bytes) : Except Error Bytes → Except Error Bytes
  | .ok response => if truncatedFlag response then stream request else .ok response
  | .error error => .error error

/-! ## The reader -/

def Upstream.Event.isRecvError : Upstream.Event → Bool
  | .multiplexer (.recvError _) => true
  | _ => false

def Multiplexer.Reader.exited : Reader → Bool
  | .stopped => true
  | .recv | .dispatch _ _ | .deliver _ _ | .drain _ | .fail _ _ => false

def Multiplexer.Reader.failed : Reader → Bool
  | .drain _ | .fail _ _ | .stopped => true
  | .recv | .dispatch _ _ | .deliver _ _ => false

/-- A query registers on a multiplexer whose reader has ended. -/
def Upstream.RegistersUnread (u u' : Upstream) : Prop :=
  ∃ p p', u.udp = some p ∧ u'.udp = some p' ∧ p.shared.reader.exited = true ∧
    ∃ id, id ∉ p.shared.pending ∧ id ∈ p'.shared.pending

theorem Multiplexer.Mux.failed_read {s s' : Mux} (h : s.read = some s') : s'.reader.failed = s.reader.failed := by
  unfold Mux.read at h
  split at h
  · next hreader =>
    rw [hreader]
    split at h
    · cases h; rfl
    · split at h <;> cases h <;> rfl
  · next hreader => rw [hreader]; cases h; rfl
  · next hreader => rw [hreader]; cases h; rfl
  · next hreader => rw [hreader]; cases h; rfl
  · next hreader => rw [hreader]; cases h; rfl
  · cases h
  · cases h

variable {ts : List Thread} {t : Thread} {c : Choice} {p p' : Queries} {e : Upstream.Event} {u : Upstream}
  {es : List Upstream.Event} {datagram : Bytes} {id originalId : UInt16} {error : Str} {u' : Upstream}

theorem Multiplexer.Acts.reader {s s' : Mux} (h : Acts s t c s' ts) : s'.reader = s.reader := by
  cases h with
  | unregisters =>
    unfold Mux.finish Mux.unregister
    split <;> rfl
  | _ => rfl

/-- Only an error of `recv` makes the reader fail, and then it stays so. -/
theorem Multiplexer.Queries.failed_step {e : Multiplexer.Event} (h : p.step e = some p') :
    p'.shared.reader.failed = (Upstream.Event.isRecvError (.multiplexer e) || p.shared.reader.failed) := by
  cases e with
  | datagram bytes =>
    obtain ⟨s', hrecv, rfl⟩ := Option.map_eq_some_iff.mp h
    unfold Mux.recv at hrecv
    split at hrecv
    · next hreader => cases hrecv; rw [hreader]; rfl
    · cases hrecv
  | recvError error =>
    obtain ⟨s', hrecv, rfl⟩ := Option.map_eq_some_iff.mp h
    cases reads_of_recvError hrecv
    rfl
  | reader =>
    obtain ⟨s', hread, rfl⟩ := Option.map_eq_some_iff.mp h
    exact Mux.failed_read hread
  | query e =>
    rcases Pool.step_eq_some h with ⟨t, -, -, rfl⟩ | ⟨i, c, t, s', ts, rest, -, -, -, hact, rfl⟩
    · rfl
    · exact congrArg Reader.failed (acts_of_act hact).reader

theorem Upstream.step_some (hu : u.udp = some p) (h : u.step e = some u') :
    ∃ e' p', p.step e' = some p' ∧ u'.udp = some p' ∧
      Upstream.Event.isRecvError (.multiplexer e') = e.isRecvError := by
  cases e with
  | query request connect =>
    simp only [Upstream.step, hu] at h
    obtain ⟨p', hp', rfl⟩ := Option.map_eq_some_iff.mp h
    exact ⟨_, p', hp', rfl, rfl⟩
  | multiplexer e =>
    unfold Upstream.step at h
    grind [Option.bind_eq_some_iff, Option.map_eq_some_iff]

/-- The multiplexer after a step comes from the one before, or was just made. -/
theorem Upstream.step_udp (h : u.step e = some u') (hu' : u'.udp = some p') :
    ∃ p e', (u.udp = some p ∨ ∃ nextId, p = .start nextId) ∧ p.step e' = some p' ∧
      Upstream.Event.isRecvError (.multiplexer e') = e.isRecvError := by
  rcases hu : u.udp with _ | p
  · cases e with
    | query request connect =>
      simp only [Upstream.step, hu] at h
      cases connect with
      | ok nextId =>
        obtain ⟨q, hq, rfl⟩ := Option.map_eq_some_iff.mp h
        cases hu'
        exact ⟨_, _, .inr ⟨nextId, rfl⟩, hq, rfl⟩
      | error =>
        cases h
        cases hu.symm.trans hu'
    | multiplexer e =>
      unfold Upstream.step at h
      grind
  grind [Upstream.step_some]

/-- As long as there is no error, the reader has not failed. -/
def Upstream.Unfailed (u : Upstream) : Prop := ∀ p, u.udp = some p → p.shared.reader.failed = false

theorem Upstream.Unfailed.step (h : u.Unfailed)
    (he : e.isRecvError = false) (hstep : u.step e = some u') : u'.Unfailed := by
  intro p' hp'
  obtain ⟨p, e', hp, hq, hsame⟩ := Upstream.step_udp hstep hp'
  have hunfailed : p.shared.reader.failed = false := by
    rcases hp with hp | ⟨nextId, rfl⟩
    · exact h p hp
    · rfl
  rw [Queries.failed_step hq, hsame, he, hunfailed]
  rfl

theorem Upstream.unfailed_run
    (hes : ∀ e ∈ es, e.isRecvError = false) (hrun : run Upstream.step .new es = some u) : u.Unfailed := by
  have hnew : Upstream.new.Unfailed := by
    intro p hp
    cases hp
  exact run_inv Upstream.Unfailed (fun e => e.isRecvError = false) (fun _ _ _ he h => h.step he) hes hnew hrun

theorem Upstream.Unfailed.not_registersUnread (h : u.Unfailed) : ¬ u.RegistersUnread u' := by
  rintro ⟨p, p', hp, -, hexited, -⟩
  have hfailed := h p hp
  cases hreader : p.shared.reader with
  | stopped => rw [hreader] at hfailed; cases hfailed
  | recv | dispatch | deliver | drain | fail => rw [hreader] at hexited; cases hexited

/-! ## Answers -/

/-- The event is not the start of a query. -/
def Multiplexer.Event.goesOn : Multiplexer.Event → Bool
  | .query (.spawn _) => false
  | .datagram _ | .recvError _ | .reader | .query (.act _ _) => true

theorem Upstream.run_multiplexer {es : List Multiplexer.Event} : ∀ {p p' : Queries},
    (∀ e ∈ es, e.goesOn = true) → run Queries.step p es = some p' →
    run Upstream.step ⟨some p⟩ (es.map .multiplexer) = some ⟨some p'⟩ := by
  induction es with
  | nil =>
    intro p p' _ hrun
    cases hrun
    rfl
  | cons e es ih =>
    intro p p' hes hrun
    obtain ⟨q, hq, hrest⟩ := run_cons_eq_some.mp hrun
    have hstep : Upstream.step ⟨some p⟩ (.multiplexer e) = some ⟨some q⟩ := by
      have he := hes e mem_cons_self
      cases e with
      | datagram | recvError | reader => simp [Upstream.step, hq]
      | query e =>
        cases e with
        | spawn => cases he
        | act => simp [Upstream.step, hq]
    simp_all [run_cons_eq_some]

/-- A reader that has not failed is at `recv` after two steps at most. -/
theorem Multiplexer.Queries.reader_returns (h : p.shared.reader.failed = false) :
    ∃ n ≤ 2, ∃ p', run Queries.step p (List.replicate n .reader) = some p' ∧ p'.shared.reader = .recv := by
  have hdeliver : ∀ {q : Queries} {channel length}, q.shared.reader = .deliver channel length →
      ∃ q', q.step .reader = some q' ∧ q'.shared.reader = .recv := by
    intro q channel length hreader
    refine ⟨_, by simp only [Queries.step, Mux.read, hreader]; rfl, rfl⟩
  cases hreader : p.shared.reader with
  | recv => exact ⟨0, by omega, p, rfl, hreader⟩
  | deliver channel length =>
    obtain ⟨q, hq, hrecv⟩ := hdeliver hreader
    exact ⟨1, by omega, q, run_cons_eq_some.mpr ⟨q, hq, rfl⟩, hrecv⟩
  | dispatch message length =>
    have hread : ∃ q, p.step .reader = some q ∧
        (q.shared.reader = .recv ∨ ∃ channel, q.shared.reader = .deliver channel length) := by
      simp only [Queries.step, Mux.read, hreader]
      split
      · exact ⟨_, rfl, .inl rfl⟩
      · grind
    obtain ⟨q, hq, hrecv | ⟨channel, hreader'⟩⟩ := hread
    · exact ⟨1, by omega, q, run_cons_eq_some.mpr ⟨q, hq, rfl⟩, hrecv⟩
    · obtain ⟨r, hr, hrecv⟩ := hdeliver hreader'
      exact ⟨2, by omega, r, run_cons_eq_some.mpr ⟨q, hq, run_cons_eq_some.mpr ⟨r, hr, rfl⟩⟩, hrecv⟩
  | drain | fail | stopped => rw [hreader] at h; cases h

theorem received_id (h : dnsId datagram = .ok id) (tail : Bytes) :
    2 ≤ (datagram.take maxDnsMessage).length ∧ dnsId (datagram.take maxDnsMessage ++ tail) = .ok id := by
  match datagram, h with
  | hi :: lo :: rest, h =>
    exact ⟨Nat.le_add_left _ _, h⟩

theorem truncatedFlag_answer (h : dnsId datagram = .ok id) (originalId : UInt16) :
    truncatedFlag (overwrite (datagram.take maxDnsMessage) 0 (beU16 originalId)) = truncatedFlag datagram := by
  have hlen := (received_id h []).1
  rw [truncatedFlag, overwrite_get_out (by simpa using hlen) (.inr (by simp)),
    getElem?_take_of_lt (by decide), truncatedFlag]

/-- A datagram arrives with the id of the query that waits as the `i`-th, and is handed to it. -/
def answering (i : Nat) (datagram : Bytes) : List Multiplexer.Event :=
  [.datagram datagram, .reader, .reader, .query (.act i .go)]

theorem Multiplexer.Queries.answers (hsound : Sound p.shared p.threads) {i channel : Nat} {internalId : UInt16}
    (hthread : p.threads[i]? = some (.receive channel internalId originalId))
    (hlookup : p.shared.pending.lookup internalId = some channel) (hreader : p.shared.reader = .recv)
    (hid : dnsId datagram = .ok internalId) : ∃ p', run Queries.step p (answering i datagram) = some p' ∧
      p'.shared.returned = p.shared.returned ++
        [(some channel, .ok (overwrite (datagram.take maxDnsMessage) 0 (beU16 originalId)))] := by
  obtain ⟨s, ts⟩ := p
  simp only at hthread hlookup hreader hsound
  obtain ⟨hlen, hdns⟩ := received_id hid (s.buffer.drop (datagram.take maxDnsMessage).length)
  obtain ⟨ch, hch⟩ : ∃ ch, s.channels[channel]? = some ch :=
    ⟨_, getElem?_eq_getElem (hsound.lt_of_lookup hlookup)⟩
  have hpoll : ∀ result, (s.channels.modify channel fun ch => { ch with sent := some result })[channel]?.bind
      Channel.poll = some (some result) := by
    intro result
    rw [getElem?_modify, hch]
    simp [Channel.poll]
  let received := datagram.take maxDnsMessage
  let dispatching : Mux := { s with
    reader := .dispatch s.datagrams.length received.length
    buffer := received ++ s.buffer.drop received.length
    datagrams := s.datagrams ++ [received] }
  let delivering : Mux := { dispatching with
    pending := s.pending.erase internalId
    reader := .deliver channel received.length
    completed := s.completed ++ [(s.datagrams.length, channel)] }
  let delivered : Mux := { delivering.send channel (.ok received) with reader := .recv }
  have hrecv : Queries.step ⟨s, ts⟩ (.datagram datagram) = some ⟨dispatching, ts⟩ := by
    simp only [Queries.step, Mux.recv, hreader]
    rfl
  have htake : Queries.step ⟨dispatching, ts⟩ .reader = some ⟨delivering, ts⟩ := by
    simp only [Queries.step, Mux.read, dispatching, received, hdns, hlookup]
    rfl
  have hdeliver : Queries.step ⟨delivering, ts⟩ .reader = some ⟨delivered, ts⟩ := by
    simp only [Queries.step, Mux.read, delivering, dispatching, take_left]
    rfl
  have hreturn : Queries.step ⟨delivered, ts⟩ (.query (.act i .go)) =
      some ⟨delivered.finish (some channel) (.ok (overwrite received 0 (beU16 originalId))), ts.eraseIdx i⟩ := by
    have hresult : delivered.channels[channel]?.bind Channel.poll = some (some (.ok received)) := hpoll _
    simp only [Queries.step, Pool.step, hthread, act, hresult, restoreId, received, if_pos hlen]
    rfl
  exact ⟨_, run_cons_eq_some.mpr ⟨_, hrecv, run_cons_eq_some.mpr ⟨_, htake, run_cons_eq_some.mpr
    ⟨_, hdeliver, run_cons_eq_some.mpr ⟨_, hreturn, rfl⟩⟩⟩⟩, rfl⟩

/-! ## After an error -/

theorem Multiplexer.Queries.fails (ts : List Thread) {message : Str} : ∀ {channels : List Nat} (s : Mux),
    s.reader = .fail channels message → s.pending = ∅ →
    ∃ n s', run Queries.step ⟨s, ts⟩ (List.replicate n .reader) = some ⟨s', ts⟩ ∧
      s'.reader = .stopped ∧ s'.pending = ∅
  | [], s, hreader, hpending => by
    refine ⟨1, { s with reader := .stopped }, run_cons_eq_some.mpr ⟨_, ?_, rfl⟩, rfl, hpending⟩
    simp only [Queries.step, Mux.read, hreader]
    rfl
  | channel :: channels, s, hreader, hpending => by
    obtain ⟨n, s', hrun, hstopped, hempty⟩ := Multiplexer.Queries.fails ts
      { s.send channel (.error message) with reader := .fail channels message } rfl hpending
    refine ⟨n + 1, s', run_cons_eq_some.mpr ⟨_, ?_, hrun⟩, hstopped, hempty⟩
    simp only [Queries.step, Mux.read, hreader]
    rfl

theorem Multiplexer.Queries.stops {s : Mux} (ts : List Thread) (hreader : s.reader = .drain error) :
    ∃ n s', run Queries.step ⟨s, ts⟩ (List.replicate n .reader) = some ⟨s', ts⟩ ∧
      s'.reader = .stopped ∧ s'.pending = ∅ := by
  obtain ⟨n, s', hrun, hstopped, hempty⟩ := Multiplexer.Queries.fails ts { s with
    pending := ∅
    reader := .fail (s.pending.entries.map Sigma.snd) ("DNS UDP receive failed: " ++ error) } rfl rfl
  refine ⟨n + 1, s', run_cons_eq_some.mpr ⟨_, ?_, hrun⟩, hstopped, hempty⟩
  simp only [Queries.step, Mux.read, hreader]
  rfl

/-- The reader has ended, and this query got nothing from it. -/
structure Multiplexer.Unheard (channel : Nat) (p : Queries) : Prop where
  stopped : p.shared.reader = .stopped
  silent : ∃ ch, p.shared.channels[channel]? = some ch ∧ ch.sent = none
  returned : ∀ response, (some channel, .ok response) ∉ p.shared.returned

section Unheard
variable {channel : Nat} {s s' : Mux} {ts ts' : List Thread}

variable (h : Unheard channel ⟨s, ts⟩)
include h

theorem Multiplexer.Unheard.finish {c : Option Nat} {result : Except Error Bytes}
    (hresult : c = some channel → ∀ response, result ≠ .ok response) : Unheard channel ⟨s.finish c result, ts'⟩ := by
  refine ⟨h.stopped, h.silent, fun response hmem => ?_⟩
  rcases mem_append.mp hmem with hmem | hmem
  · exact h.returned response hmem
  · cases mem_singleton.mp hmem
    exact hresult rfl response rfl

theorem Multiplexer.Unheard.unregister (id : UInt16) :
    Unheard channel ⟨s.unregister id, ts⟩ := by
  obtain ⟨ch, hch, hsent⟩ := h.silent
  unfold Mux.unregister
  split
  · exact h
  · next c _ =>
    refine ⟨h.stopped, ⟨if c = channel then { ch with closed := true } else ch, ?_, ?_⟩, h.returned⟩
    · rw [getElem?_modify, hch]
      rfl
    · split <;> exact hsent

theorem Multiplexer.Unheard.act
    (ha : Acts s t c s' ts') {rest : List Thread} : Unheard channel ⟨s', rest⟩ := by
  obtain ⟨ch, hch, hsent⟩ := h.silent
  cases ha with
  | rejects => exact h.finish nofun
  | @exhausts _ nextId _ =>
    have hnext : Unheard channel ⟨{ s with nextId }, ts⟩ := ⟨h.stopped, h.silent, h.returned⟩
    exact hnext.finish nofun
  | registers => exact ⟨h.stopped, ⟨ch, Numbered.get_concat hch, hsent⟩, h.returned⟩
  | sends | sendFails | dropsSend | expires | dropsReceive => exact ⟨h.stopped, h.silent, h.returned⟩
  | unregisters => exact (h.unregister _).finish fun _ _ => nofun
  | receiveFails => exact h.finish fun _ _ => nofun
  | receives hchannel hok =>
    refine h.finish fun heq response _ => ?_
    cases heq
    cases hch.symm.trans hchannel
    cases hsent.symm.trans hok

end Unheard

theorem Multiplexer.Unheard.step {channel : Nat} {e : Multiplexer.Event}
    (h : Unheard channel p) (hstep : p.step e = some p') : Unheard channel p' := by
  cases e with
  | datagram bytes =>
    simp only [Queries.step, Mux.recv, h.stopped] at hstep
    cases hstep
  | recvError error =>
    simp only [Queries.step, Mux.recvError, h.stopped] at hstep
    cases hstep
  | reader =>
    simp only [Queries.step, Mux.read, h.stopped] at hstep
    cases hstep
  | query e =>
    rcases Pool.step_eq_some hstep with ⟨t, -, -, rfl⟩ | ⟨i, c, t, s', ts, rest, -, -, -, hact, rfl⟩
    · exact ⟨h.stopped, h.silent, h.returned⟩
    · exact h.act (acts_of_act hact)

theorem Multiplexer.Unheard.run {channel : Nat}
    (h : ∃ p, u.udp = some p ∧ Unheard channel p) (hrun : Lib.run Upstream.step u es = some u') :
    ∃ p, u'.udp = some p ∧ Unheard channel p := by
  refine run_inv (fun u : Upstream => ∃ p, u.udp = some p ∧ Unheard channel p) (fun _ => True) ?_
    (fun _ _ => trivial) h hrun
  rintro v e v' - ⟨p, hp, hunheard⟩ hstep
  obtain ⟨e', p', hp', hv', -⟩ := Upstream.step_some hp hstep
  exact ⟨p', hv', hunheard.step hp'⟩

/-- A query that comes to an ended reader registers, and is never answered. -/
theorem Multiplexer.Queries.registers_unheard {s : Mux} (hsound : Sound s ts)
    (hstopped : s.reader = .stopped) (hempty : s.pending = ∅) {request : Bytes} (hid : dnsId request = .ok originalId) :
    ∃ p', Queries.step ⟨s, .query request :: ts⟩ (.query (.act 0 .go)) = some p' ∧
      (∃ id, id ∈ p'.shared.pending) ∧ Unheard s.channels.length p' := by
  rcases hselect : selectId s.pending 65536 s.nextId with ⟨_ | id, nextId⟩
  · have hmem := mem_of_selectId_none hselect 0
    rw [hempty] at hmem
    cases hmem
  · refine ⟨_, by simp only [Queries.step, Pool.step, getElem?_cons_zero, act, hid, hselect]; rfl, ⟨id, ?_⟩, ?_⟩
    · exact (AList.mem_insert _).mpr (.inl rfl)
    · refine ⟨hstopped, ⟨_, getElem?_concat_length, rfl⟩, fun response hmem => ?_⟩
      have hlt := hsound.owned s.channels.length (mem_append_right _ (mem_filterMap.mpr ⟨_, hmem, rfl⟩))
      exact hlt.ne rfl

theorem Upstream.sound_run
    (hrun : run Upstream.step .new es = some u) : ∀ p, u.udp = some p → Sound p.shared p.threads := by
  refine run_inv (fun u : Upstream => ∀ p, u.udp = some p → Sound p.shared p.threads) (fun _ => True) ?_
    (fun _ _ => trivial) (by rintro p ⟨⟩) hrun
  intro v e v' _ hsound hstep p' hp'
  obtain ⟨p, e', hp, hq, -⟩ := Upstream.step_udp hstep hp'
  refine sound_step ?_ hq
  rcases hp with hp | ⟨nextId, rfl⟩
  · exact hsound p hp
  · exact Multiplexer.sound_run (run_nil _)

/-- After an error of `recv`, the reader can end and a query can register that no run answers. -/
theorem Upstream.registers_after_error (hsound : ∀ p, u.udp = some p → Sound p.shared p.threads)
    (hstep : u.step (.multiplexer (.recvError error)) = some u') {request : Bytes}
    (hid : dnsId request = .ok originalId) :
    ∃ es v v' channel, (∀ e ∈ es, e.isRecvError = false) ∧ run Upstream.step u' es = some v ∧
      v.step (.multiplexer (.query (.act 0 .go))) = some v' ∧ v.RegistersUnread v' ∧
      ∀ es' w q, run Upstream.step v' es' = some w → w.udp = some q →
        ∀ response, (some channel, .ok response) ∉ q.shared.returned := by
  obtain ⟨p, hp, hmap⟩ := Option.bind_eq_some_iff.mp hstep
  obtain ⟨⟨s, ts⟩, hfail, rfl⟩ := Option.map_eq_some_iff.mp hmap
  have hdrain : s.reader = .drain error := by
    obtain ⟨s', hrecv, heq⟩ := Option.map_eq_some_iff.mp hfail
    cases heq
    cases reads_of_recvError hrecv
    rfl
  -- the reader goes on until it ends, while no query takes a step
  obtain ⟨n, s', hrun, hstopped, hempty⟩ := Queries.stops ts hdrain
  have hsound' : Sound s' ts :=
    run_inv (fun q : Queries => Sound q.shared q.threads) (fun _ => True)
      (fun _ _ _ _ => sound_step) (fun _ _ => trivial) (sound_step (hsound p hp) hfail) hrun
  obtain ⟨p', hregister, ⟨id, hmem⟩, hunheard⟩ := Queries.registers_unheard hsound' hstopped hempty hid
  have hreaders := Upstream.run_multiplexer
    (fun e he => by rw [eq_of_mem_replicate he]; rfl) hrun
  refine ⟨(List.replicate n .reader).map .multiplexer ++ [.query request (.error [])],
    ⟨some ⟨s', .query request :: ts⟩⟩, ⟨some p'⟩, s'.channels.length, ?_, ?_, ?_, ?_, ?_⟩
  · intro e he
    rcases mem_append.mp he with he | he
    · obtain ⟨e', he', rfl⟩ := mem_map.mp he
      rw [eq_of_mem_replicate he']
      rfl
    · rw [mem_singleton.mp he]
      rfl
  · exact run_append_eq_some.mpr ⟨_, hreaders, rfl⟩
  · simp only [Upstream.step, Option.bind_some, hregister, Option.map_some]
  · refine ⟨_, p', rfl, rfl, ?_, id, ?_, hmem⟩
    · simp only [hstopped]
      rfl
    · simp only [hempty]
      exact AList.notMem_empty id
  · intro es' w q hrun' hq
    obtain ⟨q', hq', hun⟩ := Unheard.run ⟨p', rfl, hunheard⟩ hrun'
    cases hq.symm.trans hq'
    exact hun.returned

/-- As long as `recv` reports no error: no query registers on a multiplexer whose reader has
    ended, the reader comes back to `recv`, and a waiting query returns the datagram that
    arrives with its id, unless it has the flag TC. An error at any time can be followed, with
    no further error, by a query that registers when the reader has ended and is not answered
    in any run. -/
theorem answered_unless_failed (es : List Upstream.Event) (u : Upstream)
    (hrun : run Upstream.step .new es = some u) :
    ((∀ e ∈ es, e.isRecvError = false) →
      (∀ e u', u.step e = some u' → ¬ u.RegistersUnread u') ∧
      ∀ p, u.udp = some p →
        (∃ n ≤ 2, ∃ p', run Upstream.step u ((List.replicate n .reader).map .multiplexer) = some ⟨some p'⟩ ∧
          p'.shared.reader = .recv) ∧
        ∀ i channel internalId originalId datagram, p.threads[i]? = some (.receive channel internalId originalId) →
          p.shared.pending.lookup internalId = some channel → p.shared.reader = .recv →
          dnsId datagram = .ok internalId →
          ∃ p' response, run Upstream.step u ((answering i datagram).map .multiplexer) = some ⟨some p'⟩ ∧
            p'.shared.returned = p.shared.returned ++ [(some channel, .ok response)] ∧
            response = overwrite (datagram.take maxDnsMessage) 0 (beU16 originalId) ∧
            (truncatedFlag datagram = false → ∀ stream request, respond stream request (.ok response) = .ok response)) ∧
    ∀ error u' request originalId, u.step (.multiplexer (.recvError error)) = some u' →
      dnsId request = .ok originalId →
      ∃ es' v v' channel, (∀ e ∈ es', e.isRecvError = false) ∧ run Upstream.step u' es' = some v ∧
        v.step (.multiplexer (.query (.act 0 .go))) = some v' ∧ v.RegistersUnread v' ∧
        ∀ es'' w q, run Upstream.step v' es'' = some w → w.udp = some q →
          ∀ response, (some channel, .ok response) ∉ q.shared.returned := by
  have hsound := Upstream.sound_run hrun
  refine ⟨fun hes => ⟨fun e u' _ => (Upstream.unfailed_run hes hrun).not_registersUnread, fun p hp => ⟨?_, ?_⟩⟩, ?_⟩
  · obtain ⟨n, hn, p', hrun', hrecv⟩ := Queries.reader_returns (Upstream.unfailed_run hes hrun p hp)
    obtain ⟨⟩ : u = ⟨some p⟩ := by cases u; cases hp; rfl
    refine ⟨n, hn, p', Upstream.run_multiplexer (fun e he => ?_) hrun', hrecv⟩
    rw [eq_of_mem_replicate he]
    rfl
  · intro i channel internalId originalId datagram hthread hlookup hreader hid
    obtain ⟨p', hrun', hreturned⟩ := Queries.answers (hsound p hp) hthread hlookup hreader hid
    obtain ⟨⟩ : u = ⟨some p⟩ := by cases u; cases hp; rfl
    grind [Upstream.run_multiplexer, answering, Event.goesOn, respond, truncatedFlag_answer]
  · intro error u' request originalId hstep hid
    exact Upstream.registers_after_error hsound hstep hid

def waiting : List Upstream.Event :=
  [.query [0, 7, 1] (.ok 5), .multiplexer (.query (.act 0 .go)), .multiplexer (.query (.act 0 .go))]

theorem answered_waiting :
    ∃ u p, run Upstream.step .new waiting = some u ∧ u.udp = some p ∧
      p.threads[0]? = some (.receive 0 5 7) ∧
      ∃ p', run Upstream.step u ((answering 0 [0, 5, 9]).map .multiplexer) = some ⟨some p'⟩ ∧
        p'.shared.returned = [(some 0, .ok [0, 7, 9])] := by
  obtain ⟨u, p, hrun, hu, hthread, hlookup, hreader, hreturned⟩ :
      ∃ u p, run Upstream.step .new waiting = some u ∧ u.udp = some p ∧
        p.threads[0]? = some (.receive 0 5 7) ∧ p.shared.pending.lookup 5 = some 0 ∧
        p.shared.reader = .recv ∧ p.shared.returned = [] := ⟨_, _, rfl, rfl, rfl, rfl, rfl, rfl⟩
  obtain ⟨-, hp⟩ := (answered_unless_failed waiting u hrun).1 (by decide)
  obtain ⟨p', response, hrun', hreturned', rfl, -⟩ :=
    (hp p hu).2 0 0 5 7 [0, 5, 9] hthread hlookup hreader rfl
  refine ⟨u, p, hrun, hu, hthread, p', hrun', ?_⟩
  rw [hreturned', hreturned]
  rfl

/-- The query that waits fails with the error `recv` reports, and the reader ends. -/
def refused : List Upstream.Event :=
  waiting ++ [.multiplexer (.recvError "Connection refused"), .multiplexer .reader, .multiplexer .reader,
    .multiplexer .reader, .multiplexer (.query (.act 0 .go)), .query [0, 8, 1] (.ok 6)]

/-- The next query registers all the same, and waits for a datagram that nobody will read. -/
theorem registers_on_stopped :
    ∃ u u' p, run Upstream.step .new refused = some u ∧
      u.step (.multiplexer (.query (.act 0 .go))) = some u' ∧ u.RegistersUnread u' ∧
      u'.udp = some p ∧
      p.shared.returned = [(some 0, .error (.receive "DNS UDP receive failed: Connection refused"))] ∧
      ∀ es w q, run Upstream.step u' es = some w → w.udp = some q →
        ∀ response, (some 1, .ok response) ∉ q.shared.returned := by
  obtain ⟨p, p', hrun, hstep, hexited, hpending, hpending', hreturned, hreader, hchannel⟩ :
      ∃ p p', run Upstream.step .new refused = some ⟨some p⟩ ∧
        Upstream.step ⟨some p⟩ (.multiplexer (.query (.act 0 .go))) = some ⟨some p'⟩ ∧
        p.shared.reader.exited = true ∧ 6 ∉ p.shared.pending ∧ 6 ∈ p'.shared.pending ∧
        p'.shared.returned = [(some 0, .error (.receive "DNS UDP receive failed: Connection refused"))] ∧
        p'.shared.reader = .stopped ∧ ∃ ch, p'.shared.channels[1]? = some ch ∧ ch.sent = none :=
    ⟨_, _, rfl, rfl, rfl, by decide, by decide, rfl, rfl, _, rfl, rfl⟩
  refine ⟨_, _, p', hrun, hstep, ⟨p, p', rfl, rfl, hexited, 6, hpending, hpending'⟩, rfl, hreturned, ?_⟩
  intro es w q hrun' hq
  have hunheard : Unheard 1 p' := ⟨hreader, hchannel, by simp [hreturned]⟩
  obtain ⟨q', hq', hun⟩ := Unheard.run ⟨p', rfl, hunheard⟩ hrun'
  cases hq.symm.trans hq'
  exact hun.returned

end Xhttp.Dns
