import Mathlib.Data.List.AList
import Mathlib.Data.List.Nodup
import Xhttp.Dns.Message
import Xhttp.Lib.Map
import Xhttp.Lib.Pool
import Xhttp.Lib.Text

/- Many DNS queries over one UDP socket (`UdpMultiplexer` in `src/dns/transport.rs`). A
   query registers under an unused id, sends its request with this id in place of its own,
   and waits; a reader task takes the query registered under the id of each message it
   receives and hands it the message. Queries run concurrently with each other and with
   the reader; every access to `pending` and to a channel is one atomic step.

   A `oneshot` channel is told by its number; it holds what was sent, and whether the sender
   was dropped before it sent. The order in which `drain` gives the senders is not
   specified; here it is that of the map. -/
namespace Xhttp.Dns.Multiplexer
open Xhttp.Lib List

inductive Error where
  | request (failure : Failure)
  | exhausted
  | send (error : Str)
  | receive (message : Str)
  | stopped
  | timeout
  | truncated
  deriving DecidableEq

def Error.text : Error → Str
  | .request (.message text) => text.toList
  | .request _ => []
  | .exhausted => "DNS UDP transaction ID space exhausted"
  | .send error => error
  | .receive message => message
  | .stopped => "DNS UDP response dispatcher stopped"
  | .timeout => "DNS timeout"
  | .truncated => "truncated DNS UDP response"

/-- A `oneshot` channel. The request is that of the query which waits for it. -/
structure Channel where
  request : Bytes
  sent : Option (Except Str Bytes)
  closed : Bool

/-- What a poll of the receiver gives: a value, or `some none` when the sender was dropped. -/
def Channel.poll (ch : Channel) : Option (Option (Except Str Bytes)) :=
  match ch.sent, ch.closed with
  | some result, _ => some (some result)
  | none, true => some none
  | none, false => none

inductive Reader where
  /-- `reader_socket.recv(&mut buffer).await`. -/
  | recv
  /-- `reader_pending.lock().remove(&id)`, for the datagram with this number. -/
  | dispatch (message : Nat) (length : Nat)
  /-- `sender.send(Ok(buffer[..length].to_vec()))`. -/
  | deliver (channel : Nat) (length : Nat)
  /-- `pending.drain()`, after an error. -/
  | drain (error : Str)
  /-- `sender.send(Err(message.clone()))` to each. -/
  | fail (channels : List Nat) (message : Str)
  | stopped

/-- The shared state and the reader. The last three fields only record what happened: the
    datagrams received, which datagram completed which query, and what queries returned. -/
structure Mux where
  pending : AList (fun _ : UInt16 => Nat)
  nextId : UInt32
  channels : List Channel
  reader : Reader
  buffer : Bytes
  datagrams : List Bytes
  completed : List (Nat × Nat)
  returned : List (Option Nat × Except Error Bytes)

def maxDnsMessage : Nat := 65535

def Mux.connect (nextId : UInt32) : Mux :=
  { pending := ∅, nextId, channels := [], reader := .recv, buffer := List.replicate maxDnsMessage 0,
    datagrams := [], completed := [], returned := [] }

/-! ## The reader -/

/-- `recv` fills the front of the buffer and leaves the rest as it was. -/
def Mux.recv (s : Mux) (datagram : Bytes) : Option Mux :=
  match s.reader with
  | .recv =>
    let received := datagram.take maxDnsMessage
    some { s with reader := .dispatch s.datagrams.length received.length,
                  buffer := received ++ s.buffer.drop received.length,
                  datagrams := s.datagrams ++ [received] }
  | _ => none

def Mux.recvError (s : Mux) (error : Str) : Option Mux :=
  match s.reader with
  | .recv => some { s with reader := .drain error }
  | _ => none

def Mux.send (s : Mux) (channel : Nat) (result : Except Str Bytes) : Mux :=
  { s with channels := s.channels.modify channel fun ch => { ch with sent := some result } }

/-- The next step of the reader, other than `recv`. The id is read from the buffer, not from
    the part of it that was received. -/
def Mux.read (s : Mux) : Option Mux :=
  match s.reader with
  | .dispatch message length =>
    match dnsId s.buffer with
    | .error _ => some { s with reader := .recv }
    | .ok id =>
      match s.pending.lookup id with
      | none => some { s with reader := .recv }
      | some channel =>
        some { s with pending := s.pending.erase id, reader := .deliver channel length,
                      completed := s.completed ++ [(message, channel)] }
  | .deliver channel length =>
    some { s.send channel (.ok (s.buffer.take length)) with reader := .recv }
  | .drain error =>
    some { s with pending := ∅,
                  reader := .fail (s.pending.entries.map Sigma.snd)
                    ("DNS UDP receive failed: " ++ error) }
  | .fail (channel :: channels) message =>
    some { s.send channel (.error message) with reader := .fail channels message }
  | .fail [] _ => some { s with reader := .stopped }
  | .recv | .stopped => none

/-! ## Queries -/

/-- What is left of a query, named after its next step. -/
inductive Thread where
  /-- `dns_id`, and the registration under the lock of `pending`. -/
  | query (request : Bytes)
  /-- `self.socket.send(&wire).await`. -/
  | send (channel : Nat) (internalId originalId : UInt16) (wire : Bytes)
  /-- `self.pending.lock().remove(&internal_id)`, on an error. -/
  | unregister (channel : Nat) (internalId : UInt16) (error : Error)
  /-- `timeout(DNS_TIMEOUT, receiver).await`. -/
  | receive (channel : Nat) (internalId originalId : UInt16)

inductive Choice where
  | go
  | sendError (error : Str)
  | elapsed
  | dropped

/-- The loop over candidates, `n` at most: the first id that is not in use, and `next_id`
    afterwards. -/
def selectId (pending : AList (fun _ : UInt16 => Nat)) : Nat → UInt32 → Option UInt16 × UInt32
  | 0, nextId => (none, nextId)
  | n + 1, nextId =>
    if nextId.toUInt16 ∈ pending then selectId pending n (nextId + 1)
    else (some nextId.toUInt16, nextId + 1)

def Mux.finish (s : Mux) (channel : Option Nat) (result : Except Error Bytes) : Mux :=
  { s with returned := s.returned ++ [(channel, result)] }

/-- An id is removed from `pending`, whoever is registered under it; the sender is dropped. -/
def Mux.unregister (s : Mux) (id : UInt16) : Mux :=
  match s.pending.lookup id with
  | none => s
  | some channel =>
    { s with pending := s.pending.erase id,
             channels := s.channels.modify channel fun ch => { ch with closed := true } }

/-- `response.get_mut(..2)`, with the id of the request put back. -/
def restoreId (originalId : UInt16) (received : Bytes) : Except Error Bytes :=
  if 2 ≤ received.length then .ok (overwrite received 0 (beU16 originalId)) else .error .truncated

def act (s : Mux) : Thread → Choice → Option (Mux × List Thread)
  | .query request, .go =>
    match dnsId request with
    | .error failure => some (s.finish none (.error (.request failure)), [])
    | .ok originalId =>
      match selectId s.pending 65536 s.nextId with
      | (none, nextId) => some ({ s with nextId }.finish none (.error .exhausted), [])
      | (some id, nextId) =>
        some ({ s with nextId, pending := s.pending.insert id s.channels.length,
                       channels := s.channels ++ [⟨request, none, false⟩] },
          [.send s.channels.length id originalId (overwrite request 0 (beU16 id))])
  | .send channel id originalId _, .go => some (s, [.receive channel id originalId])
  | .send channel id _ _, .sendError error => some (s, [.unregister channel id (.send error)])
  | .send _ _ _ _, .dropped => some (s, [])
  | .unregister channel id error, .go => some ((s.unregister id).finish (some channel) (.error error), [])
  | .receive channel _ originalId, .go =>
    match s.channels[channel]?.bind Channel.poll with
    | some (some (.ok received)) => some (s.finish (some channel) (restoreId originalId received), [])
    | some (some (.error message)) => some (s.finish (some channel) (.error (.receive message)), [])
    | some none => some (s.finish (some channel) (.error .stopped), [])
    | none => none
  | .receive channel id _, .elapsed =>
    match s.channels[channel]?.bind Channel.poll with
    | some _ => none
    | none => some (s, [.unregister channel id .timeout])
  | .receive _ _ _, .dropped => some (s, [])
  | _, _ => none

def starts : Thread → Bool
  | .query _ => true
  | _ => false

/-! ## Schedules -/

inductive Event where
  | datagram (bytes : Bytes)
  | recvError (error : Str)
  | reader
  | query (e : Pool.Event Thread Choice)

abbrev Queries := Pool Mux Thread

def Queries.step (p : Queries) : Event → Option Queries
  | .datagram bytes => (p.shared.recv bytes).map fun s => { p with shared := s }
  | .recvError error => (p.shared.recvError error).map fun s => { p with shared := s }
  | .reader => p.shared.read.map fun s => { p with shared := s }
  | .query e => Pool.step starts act p e

def Queries.start (nextId : UInt32) : Queries := ⟨.connect nextId, []⟩

/-! ## Registration -/

variable {nextId' : UInt32}

theorem selectId_some {pending : AList (fun _ : UInt16 => Nat)} {id : UInt16} :
    ∀ {n : Nat} {nextId : UInt32}, selectId pending n nextId = (some id, nextId') → id ∉ pending
  | n + 1, nextId, h => by
    rw [selectId] at h
    split at h
    · exact selectId_some h
    · next hfree =>
      cases h
      exact hfree

theorem selectId_none {pending : AList (fun _ : UInt16 => Nat)} :
    ∀ {n : Nat} {nextId : UInt32}, selectId pending n nextId = (none, nextId') →
      ∀ k < n, (nextId + UInt32.ofNat k).toUInt16 ∈ pending
  | n + 1, nextId, h, k, hk => by
    rw [selectId] at h
    split at h
    · next hused =>
      cases k with
      | zero => simpa using hused
      | succ k =>
        have hrest := selectId_none h k (Nat.lt_of_succ_lt_succ hk)
        rwa [UInt32.add_assoc, ← UInt32.ofNat_one, ← UInt32.ofNat_add, Nat.add_comm 1 k] at hrest
    · cases h

variable {nextId : UInt32} {s s' : Mux} {datagram : Bytes} {e : Event}
  {p : Queries} {es : List Event} {id : UInt16} {p' : Queries} {originalId : UInt16} {t : Thread}
  {ts : List Thread} {c : Choice}

/-- The candidates of 65536 rounds are all ids. -/
theorem mem_of_selectId_none {pending : AList (fun _ : UInt16 => Nat)}
    (h : selectId pending 65536 nextId = (none, nextId')) (id : UInt16) : id ∈ pending := by
  -- the counter reaches `id` after `id - nextId` rounds, modulo 65536
  have hid := selectId_none h (id - nextId.toUInt16).toNat (UInt16.toNat_lt _)
  rwa [UInt32.toUInt16_add, UInt32.toUInt16_ofNat', UInt16.ofNat_toNat, UInt16.add_comm, UInt16.sub_add_cancel] at hid

/-! ## What a step can do -/

inductive Reads (s : Mux) : Event → Mux → Prop where
  | receives {datagram : Bytes} :
      Reads s (.datagram datagram)
        { s with reader := .dispatch s.datagrams.length (datagram.take maxDnsMessage).length,
                 buffer := datagram.take maxDnsMessage ++ s.buffer.drop (datagram.take maxDnsMessage).length,
                 datagrams := s.datagrams ++ [datagram.take maxDnsMessage] }
  | recvFails {error} : Reads s (.recvError error) { s with reader := .drain error }
  | skips : Reads s .reader { s with reader := .recv }
  | takes {message length id channel} (hreader : s.reader = .dispatch message length)
      (hid : dnsId s.buffer = .ok id) (hlookup : s.pending.lookup id = some channel) :
      Reads s .reader { s with pending := s.pending.erase id, reader := .deliver channel length,
                               completed := s.completed ++ [(message, channel)] }
  | delivers {channel length} (hreader : s.reader = .deliver channel length) :
      Reads s .reader { s.send channel (.ok (s.buffer.take length)) with reader := .recv }
  | drains {channels message} : Reads s .reader { s with pending := ∅, reader := .fail channels message }
  | fails {channel channels message} :
      Reads s .reader { s.send channel (.error message) with reader := .fail channels message }
  | stops : Reads s .reader { s with reader := .stopped }

theorem reads_of_recv (h : s.recv datagram = some s') : Reads s (.datagram datagram) s' := by
  unfold Mux.recv at h
  split at h
  · cases h; exact .receives
  · cases h

theorem reads_of_recvError {error : Str} (h : s.recvError error = some s') : Reads s (.recvError error) s' := by
  unfold Mux.recvError at h
  split at h
  · cases h; exact .recvFails
  · cases h

theorem reads_of_read (h : s.read = some s') : Reads s .reader s' := by
  unfold Mux.read at h
  split at h
  · next hreader =>
    split at h
    · cases h; exact .skips
    · next hid =>
      split at h
      · cases h; exact .skips
      · next hlookup => cases h; exact .takes hreader hid hlookup
  · next hreader => cases h; exact .delivers hreader
  · cases h; exact .drains
  · cases h; exact .fails
  · cases h; exact .stops
  · cases h
  · cases h

inductive Acts (s : Mux) : Thread → Choice → Mux → List Thread → Prop where
  | rejects {request failure} :
      Acts s (.query request) .go (s.finish none (.error (.request failure))) []
  | exhausts {request nextId} (hselect : selectId s.pending 65536 s.nextId = (none, nextId)) :
      Acts s (.query request) .go ({ s with nextId }.finish none (.error .exhausted)) []
  | registers {request originalId id nextId wire} (hid : dnsId request = .ok originalId)
      (hselect : selectId s.pending 65536 s.nextId = (some id, nextId)) :
      Acts s (.query request) .go
        { s with nextId, pending := s.pending.insert id s.channels.length,
                 channels := s.channels ++ [⟨request, none, false⟩] }
        [.send s.channels.length id originalId wire]
  | sends {channel id originalId wire} :
      Acts s (.send channel id originalId wire) .go s [.receive channel id originalId]
  | sendFails {channel id originalId wire error} :
      Acts s (.send channel id originalId wire) (.sendError error) s [.unregister channel id (.send error)]
  | dropsSend {channel id originalId wire} : Acts s (.send channel id originalId wire) .dropped s []
  | unregisters {channel id error} :
      Acts s (.unregister channel id error) .go ((s.unregister id).finish (some channel) (.error error)) []
  | receives {channel id originalId ch received} (hchannel : s.channels[channel]? = some ch)
      (hsent : ch.sent = some (.ok received)) :
      Acts s (.receive channel id originalId) .go
        (s.finish (some channel) (restoreId originalId received)) []
  | receiveFails {channel id originalId error} (herror : error ≠ .truncated) :
      Acts s (.receive channel id originalId) .go (s.finish (some channel) (.error error)) []
  | expires {channel id originalId} :
      Acts s (.receive channel id originalId) .elapsed s [.unregister channel id .timeout]
  | dropsReceive {channel id originalId} : Acts s (.receive channel id originalId) .dropped s []

theorem Channel.sent_of_poll {ch : Channel} {result : Except Str Bytes}
    (h : ch.poll = some (some result)) : ch.sent = some result := by
  grind [Channel.poll]

theorem acts_of_act (h : act s t c = some (s', ts)) : Acts s t c s' ts := by
  unfold act at h
  split at h
  · split at h
    · cases h; exact .rejects
    · next hid =>
      split at h
      · next hselect => cases h; exact .exhausts hselect
      · next hselect => cases h; exact .registers hid hselect
  · cases h; exact .sends
  · cases h; exact .sendFails
  · cases h; exact .dropsSend
  · cases h; exact .unregisters
  · split at h
    · next hpoll =>
      obtain ⟨ch, hchannel, hsent⟩ := Option.bind_eq_some_iff.mp hpoll
      cases h
      exact .receives hchannel (Channel.sent_of_poll hsent)
    · cases h; exact .receiveFails nofun
    · cases h; exact .receiveFails nofun
    · cases h
  · split at h
    · cases h
    · cases h; exact .expires
  · cases h; exact .dropsReceive
  · cases h

/-- The reader takes a step, or a query starts, or one goes on. -/
theorem step_cases (h : p.step e = some p') :
    (∃ s', Reads p.shared e s' ∧ p' = { p with shared := s' }) ∨
    (∃ request, p' = ⟨p.shared, .query request :: p.threads⟩) ∨
    (∃ t c s' ts rest, p.threads.Perm (t :: rest) ∧ Acts p.shared t c s' ts ∧ p' = ⟨s', ts ++ rest⟩) := by
  cases e with
  | datagram bytes =>
    obtain ⟨s', hrecv, rfl⟩ := Option.map_eq_some_iff.mp h
    exact .inl ⟨s', reads_of_recv hrecv, rfl⟩
  | recvError error =>
    obtain ⟨s', hrecv, rfl⟩ := Option.map_eq_some_iff.mp h
    exact .inl ⟨s', reads_of_recvError hrecv, rfl⟩
  | reader =>
    obtain ⟨s', hread, rfl⟩ := Option.map_eq_some_iff.mp h
    exact .inl ⟨s', reads_of_read hread, rfl⟩
  | query e =>
    rcases Pool.step_eq_some h with ⟨t, -, ht, rfl⟩ | ⟨i, c, t, s', ts, rest, -, -, hp, hact, rfl⟩
    · cases t with
      | query request => exact .inr (.inl ⟨request, rfl⟩)
      | send | unregister | receive => cases ht
    · exact .inr (.inr ⟨t, c, s', ts, rest, hp, acts_of_act hact, rfl⟩)

/-! ## What all queries keep together -/

def Thread.channel : Thread → Option Nat
  | .query _ => none
  | .send channel _ _ _ | .unregister channel _ _ | .receive channel _ _ => some channel

/-- The query with this channel was asked with this id. -/
def Mux.Asked (s : Mux) (channel : Nat) (originalId : UInt16) : Prop :=
  ∃ ch, s.channels[channel]? = some ch ∧ dnsId ch.request = .ok originalId

/-- The query with this channel was completed by this datagram. -/
def Mux.CompletedBy (s : Mux) (channel : Nat) (datagram : Bytes) : Prop :=
  ∃ message, (message, channel) ∈ s.completed ∧ s.datagrams[message]? = some datagram

/-- What a query can rely on. -/
def Thread.Fits (s : Mux) : Thread → Prop
  | .query _ => True
  | .send channel _ originalId _ | .receive channel _ originalId => s.Asked channel originalId
  | .unregister _ _ error => error ≠ .truncated

def Reader.Fits (s : Mux) : Reader → Prop
  | .dispatch message length =>
    s.datagrams[message]? = some (s.buffer.take length) ∧ message ∉ s.completed.map Prod.fst
  | .deliver channel length => s.CompletedBy channel (s.buffer.take length)
  | _ => True

/-- What a query with this channel can return. -/
def Mux.Allows (s : Mux) (channel : Nat) : Except Error Bytes → Prop
  | .ok response => ∃ datagram originalId, s.CompletedBy channel datagram ∧ s.Asked channel originalId ∧
      response = overwrite datagram 0 (beU16 originalId)
  | .error error => error = .truncated → ∃ datagram, s.CompletedBy channel datagram ∧ datagram.length < 2

structure Sound (s : Mux) (ts : List Thread) : Prop where
  owners : (ts.filterMap Thread.channel ++ s.returned.filterMap Prod.fst).Nodup
  owned : ∀ c ∈ ts.filterMap Thread.channel ++ s.returned.filterMap Prod.fst, c < s.channels.length
  /-- A sender is in `pending` under one id, or was taken out by one message. -/
  senders : (s.pending.entries.map Sigma.snd ++ s.completed.map Prod.snd).Nodup
  known : ∀ c ∈ s.pending.entries.map Sigma.snd ++ s.completed.map Prod.snd, c < s.channels.length
  messages : (s.completed.map Prod.fst).Nodup
  numbered : ∀ m ∈ s.completed.map Prod.fst, m < s.datagrams.length
  fits : ∀ t ∈ ts, t.Fits s
  reader : s.reader.Fits s
  sent : ∀ (c : Nat) ch datagram, s.channels[c]? = some ch → ch.sent = some (.ok datagram) →
    s.CompletedBy c datagram
  returned : ∀ c result, (some c, result) ∈ s.returned → s.Allows c result

/-- What was asked, received and completed stays so. -/
structure Mux.Grows (s s' : Mux) : Prop where
  asked : ∀ c originalId, s.Asked c originalId → s'.Asked c originalId
  datagrams : ∀ (m : Nat) datagram, s.datagrams[m]? = some datagram → s'.datagrams[m]? = some datagram
  completed : ∀ x ∈ s.completed, x ∈ s'.completed

section Grows
variable {s s' : Mux} {c : Nat}

theorem Mux.Grows.completedBy (h : s.Grows s') (hc : s.CompletedBy c datagram) : s'.CompletedBy c datagram := by
  obtain ⟨m, hmem, hm⟩ := hc
  exact ⟨m, h.completed _ hmem, h.datagrams m datagram hm⟩

theorem Mux.Grows.allows (h : s.Grows s') {result : Except Error Bytes} (hr : s.Allows c result) :
    s'.Allows c result := by
  cases result with
  | ok response =>
    obtain ⟨datagram, originalId, hc, ha, heq⟩ := hr
    exact ⟨datagram, originalId, h.completedBy hc, h.asked c originalId ha, heq⟩
  | error error =>
    intro herror
    obtain ⟨datagram, hc, hlt⟩ := hr herror
    exact ⟨datagram, h.completedBy hc, hlt⟩

theorem Mux.Grows.fits (h : s.Grows s') (ht : t.Fits s) : t.Fits s' := by
  cases t with
  | query | unregister => exact ht
  | send | receive => exact h.asked _ _ ht

theorem asked_modify {channel : Nat} {g : Channel → Channel}
    (hchannels : s'.channels = s.channels.modify channel g) (hg : ∀ ch, (g ch).request = ch.request)
    (h : s.Asked c originalId) : s'.Asked c originalId := by
  obtain ⟨ch, hch, hid⟩ := h
  refine ⟨if channel = c then g ch else ch, ?_, ?_⟩
  · rw [hchannels, getElem?_modify, hch]
    rfl
  · split
    · rw [hg]
      exact hid
    · exact hid

end Grows

section Sound
variable {s s' : Mux} {ts' rest : List Thread}

theorem Sound.perm (hp : ts.Perm ts') (h : Sound s ts) : Sound s ts' := by
  have howners := (hp.filterMap Thread.channel).append_right (s.returned.filterMap Prod.fst)
  exact { h with
    owners := howners.nodup_iff.mp h.owners
    owned := fun c hc => h.owned c (howners.mem_iff.mpr hc)
    fits := fun t ht => h.fits t (hp.mem_iff.mpr ht) }

section
variable (h : Sound s ts)
include h

/-- A step that changes `pending`, the channels or the datagrams, while no query returns. -/
theorem Sound.grow (hgrows : s.Grows s') (hreturned : s'.returned = s.returned)
    (hlength : s'.channels.length = s.channels.length)
    (hsenders : (s'.pending.entries.map Sigma.snd ++ s'.completed.map Prod.snd).Subperm
      (s.pending.entries.map Sigma.snd ++ s.completed.map Prod.snd)) (hmessages : (s'.completed.map Prod.fst).Nodup)
    (hnumbered : ∀ m ∈ s'.completed.map Prod.fst, m < s'.datagrams.length) (hreader : s'.reader.Fits s')
    (hsent : ∀ (c : Nat) ch datagram, s'.channels[c]? = some ch → ch.sent = some (.ok datagram) →
      s'.CompletedBy c datagram) : Sound s' ts where
  owners := hreturned ▸ h.owners
  owned := by
    rw [hreturned, hlength]
    exact h.owned
  senders := by
    obtain ⟨l, hperm, hsub⟩ := hsenders
    exact hperm.nodup_iff.mp (h.senders.sublist hsub)
  known := fun c hc => hlength ▸ h.known c (hsenders.subset hc)
  messages := hmessages
  numbered := hnumbered
  fits := fun t ht => hgrows.fits (h.fits t ht)
  reader := hreader
  sent := hsent
  returned := fun c result hr => hgrows.allows (h.returned c result (hreturned ▸ hr))

theorem Sound.recv (received : Bytes) :
    Sound { s with reader := .dispatch s.datagrams.length received.length,
                   buffer := received ++ s.buffer.drop received.length,
                   datagrams := s.datagrams ++ [received] } ts := by
  have hgrows : s.Grows { s with reader := .dispatch s.datagrams.length received.length,
                                 buffer := received ++ s.buffer.drop received.length,
                                 datagrams := s.datagrams ++ [received] } := by
    exact ⟨fun _ _ => id, fun _ _ => Numbered.get_concat, fun _ => id⟩
  refine h.grow hgrows rfl rfl (List.Subperm.refl _) h.messages ?_ ⟨?_, ?_⟩ ?_
  · intro m hm
    have hlt := h.numbered m hm
    rw [length_append]
    omega
  · rw [take_left]
    exact getElem?_concat_length
  · exact fun hmem => (h.numbered _ hmem).ne rfl
  · exact fun c ch datagram hch hsent => hgrows.completedBy (h.sent c ch datagram hch hsent)

/-- The reader sends on a channel, a datagram only to the query it completed. -/
theorem Sound.send {channel : Nat} {result : Except Str Bytes} {reader : Reader}
    (hresult : ∀ datagram, result = .ok datagram → s.CompletedBy channel datagram)
    (hreader : reader.Fits s) : Sound { s.send channel result with reader } ts := by
  have hgrows : s.Grows { s.send channel result with reader } :=
    ⟨fun _ _ => asked_modify rfl (by intro; rfl), fun _ _ => id, fun _ => id⟩
  refine h.grow hgrows rfl (length_modify ..) (List.Subperm.refl _) h.messages h.numbered ?_ ?_
  · exact hreader
  · intro c ch datagram hch hsent
    obtain ⟨ch', hch', rfl | ⟨rfl, rfl⟩⟩ := Numbered.get_modify_cases hch
    · exact h.sent c ch datagram hch' hsent
    · exact hresult datagram (Option.some.inj hsent)

/-- The reader takes the sender registered under the id it has read. -/
theorem Sound.take {message length channel : Nat} {internalId : UInt16}
    (hreader : s.reader = .dispatch message length) (hlookup : s.pending.lookup internalId = some channel) :
    Sound { s with pending := s.pending.erase internalId, reader := .deliver channel length,
                   completed := s.completed ++ [(message, channel)] } ts := by
  have hfits := h.reader
  rw [hreader] at hfits
  obtain ⟨hmessage, hnew⟩ := hfits
  have hgrows : s.Grows { s with pending := s.pending.erase internalId, reader := .deliver channel length,
                                 completed := s.completed ++ [(message, channel)] } :=
    ⟨fun _ _ => id, fun _ _ => id, fun _ => mem_append_left _⟩
  refine h.grow hgrows rfl rfl ?_ ?_ ?_ ?_ ?_
  · -- the sender moves from `pending` to the completed ones
    have hperm := (Map.entries_perm_erase hlookup).map Sigma.snd
    rw [map_append, ← append_assoc]
    exact (perm_append_singleton _ _ |>.trans (hperm.symm.append_right _)).subperm
  · rw [map_append, nodup_append]
    refine ⟨h.messages, nodup_singleton _, ?_⟩
    grind
  · intro m hm
    rw [map_append] at hm
    rcases mem_append.mp hm with hm | hm
    · exact h.numbered m hm
    · cases mem_singleton.mp hm
      exact Numbered.lt_length hmessage
  · exact ⟨message, mem_append_right _ mem_cons_self, hmessage⟩
  · exact fun c ch d hch hd => hgrows.completedBy (h.sent c ch d hch hd)

theorem Sound.read (hread : Reads s e s') : Sound s' ts := by
  cases hread with
  | receives => exact h.recv _
  | recvFails | skips | stops => exact { h with reader := trivial }
  | takes hreader _ hlookup => exact h.take hreader hlookup
  | delivers hreader =>
    have hfits := h.reader
    rw [hreader] at hfits
    refine h.send ?_ trivial
    rintro _ ⟨⟩
    exact hfits
  | drains =>
    refine { h with senders := ?_, known := ?_, reader := trivial }
    · exact h.senders.sublist (sublist_append_right _ _)
    · exact fun c hc => h.known c (mem_append_right _ hc)
  | fails => exact h.send nofun trivial

end

section
variable (h : Sound s (t :: rest))
include h

theorem Sound.finish {results : List (Option Nat × Except Error Bytes)}
    (hchannels : (ts'.filterMap Thread.channel ++ results.filterMap Prod.fst).Sublist ([t].filterMap Thread.channel))
    (hfits : ∀ u ∈ ts', u.Fits s) (hallows : ∀ c result, (some c, result) ∈ results → s.Allows c result) :
    Sound { s with nextId, returned := s.returned ++ results } (ts' ++ rest) := by
  have howners : ((ts' ++ rest).filterMap Thread.channel ++ (s.returned ++ results).filterMap Prod.fst).Subperm
      ((t :: rest).filterMap Thread.channel ++ s.returned.filterMap Prod.fst) := by
    -- what the query held is now in `ts'` or among the results
    rw [← singleton_append (x := t)]
    simp only [filterMap_append, append_assoc]
    refine List.Subperm.trans ?_ (hchannels.append_right _).subperm
    refine List.Perm.subperm ?_
    rw [append_assoc]
    refine List.Perm.append_left _ ?_
    rw [← append_assoc]
    exact perm_append_comm
  exact { h with
    owners := by
      obtain ⟨l, hperm, hsub⟩ := howners
      exact hperm.nodup_iff.mp (h.owners.sublist hsub)
    owned := fun c hc => h.owned c (howners.subset hc)
    fits := fun u hu => by
      rcases mem_append.mp hu with hu | hu
      · exact hfits u hu
      · exact h.fits u (mem_cons_of_mem t hu)
    returned := fun c result hr => by
      rcases mem_append.mp hr with hr | hr
      · exact h.returned c result hr
      · exact hallows c result hr }

theorem Sound.answer {c : Nat} {result : Except Error Bytes}
    (hchannel : t.channel = some c) (hallows : s.Allows c result) : Sound (s.finish (some c) result) rest := by
  have hchannels : ([].filterMap Thread.channel ++ [(some c, result)].filterMap Prod.fst).Sublist
      ([t].filterMap Thread.channel) := by
    rw [filterMap_cons_some hchannel]
    exact .refl _
  refine h.finish hchannels nofun fun c' result' hr => ?_
  cases mem_singleton.mp hr
  exact hallows

theorem Sound.move
    (hchannels : (ts'.filterMap Thread.channel).Sublist ([t].filterMap Thread.channel))
    (hfits : ∀ u ∈ ts', u.Fits s) : Sound s (ts' ++ rest) := by
  have hsame : { s with nextId := s.nextId, returned := s.returned ++ [] } = s := by
    rw [append_nil]
  rw [← hsame]
  refine h.finish ?_ hfits nofun
  rwa [filterMap_nil, append_nil]

end

theorem Sound.register {request wire : Bytes} {internalId : UInt16}
    (h : Sound s (.query request :: rest)) (hfree : internalId ∉ s.pending) (hid : dnsId request = .ok originalId) :
    Sound { s with nextId, pending := s.pending.insert internalId s.channels.length,
                   channels := s.channels ++ [⟨request, none, false⟩] }
      (.send s.channels.length internalId originalId wire :: rest) := by
  have hgrows : s.Grows { s with nextId, pending := s.pending.insert internalId s.channels.length,
                                 channels := s.channels ++ [⟨request, none, false⟩] } := by
    refine ⟨?_, fun _ _ => id, fun _ => id⟩
    rintro c originalId ⟨ch, hch, hid⟩
    exact ⟨ch, Numbered.get_concat hch, hid⟩
  have hcons : ∀ {l : List Nat}, (∀ c ∈ l, c < s.channels.length) → l.Nodup →
      (s.channels.length :: l).Nodup ∧
      ∀ c ∈ s.channels.length :: l, c < (s.channels ++ [⟨request, none, false⟩] : List Channel).length := by
    intro l hlt hl
    refine ⟨nodup_cons.mpr ⟨fun hmem => (hlt _ hmem).ne rfl, hl⟩, fun c hc => ?_⟩
    rw [length_append]
    rcases mem_cons.mp hc with rfl | hc
    · exact Nat.lt_succ_self _
    · exact Nat.lt_succ_of_lt (hlt c hc)
  have hentries := AList.entries_insert_of_notMem (b := s.channels.length) hfree
  refine ⟨(hcons h.owned h.owners).1, (hcons h.owned h.owners).2, ?_, ?_, h.messages, h.numbered,
    fun u hu => ?_, h.reader, ?_, fun c result hr => hgrows.allows (h.returned c result hr)⟩
  · rw [hentries]
    exact (hcons h.known h.senders).1
  · rw [hentries]
    exact (hcons h.known h.senders).2
  · rcases mem_cons.mp hu with rfl | hu
    · exact ⟨_, getElem?_concat_length, hid⟩
    · exact hgrows.fits (h.fits u (mem_cons_of_mem _ hu))
  · intro c ch datagram hch hsent
    rcases Numbered.get_concat_cases hch with hold | ⟨-, rfl⟩
    · exact h.sent c ch datagram hold hsent
    · cases hsent

theorem Sound.unregister (h : Sound s ts) (internalId : UInt16) : Sound (s.unregister internalId) ts := by
  unfold Mux.unregister
  split
  · exact h
  · next channel hlookup =>
    have hgrows : s.Grows { s with
        pending := s.pending.erase internalId
        channels := s.channels.modify channel fun ch => { ch with closed := true } } :=
      ⟨fun _ _ => asked_modify rfl (by intro; rfl), fun _ _ => id, fun _ => id⟩
    refine h.grow hgrows rfl (length_modify ..) ?_ h.messages h.numbered h.reader ?_
    · have hsub : (s.pending.erase internalId).entries.Sublist s.pending.entries := kerase_sublist internalId _
      exact ((hsub.map Sigma.snd).append_right _).subperm
    · intro c ch datagram hch hsent
      obtain ⟨ch', hch', rfl | ⟨-, rfl⟩⟩ := Numbered.get_modify_cases hch
      · exact h.sent c ch datagram hch' hsent
      · exact h.sent c ch' datagram hch' hsent

theorem allows_restoreId {c : Nat} {received : Bytes}
    (hc : s.CompletedBy c received) (ha : s.Asked c originalId) : s.Allows c (restoreId originalId received) := by
  unfold restoreId
  split
  · exact ⟨received, originalId, hc, ha, rfl⟩
  · next hlt => exact fun _ => ⟨received, hc, Nat.lt_of_not_le hlt⟩

theorem Sound.act (h : Sound s (t :: rest)) (ha : Acts s t c s' ts) : Sound s' (ts ++ rest) := by
  have hfit := h.fits t mem_cons_self
  cases ha with
  | rejects | exhausts => exact h.finish (.refl _) nofun (by simp)
  | registers hid hselect => exact h.register (selectId_some hselect) hid
  | sends =>
    refine h.move (.refl _) fun u hu => ?_
    cases mem_singleton.mp hu
    exact hfit
  | sendFails | expires =>
    refine h.move (.refl _) fun u hu => ?_
    cases mem_singleton.mp hu
    exact nofun
  | dropsSend | dropsReceive => exact h.move (nil_sublist _) nofun
  | @unregisters channel internalId error =>
    exact (h.unregister internalId).answer rfl fun herror => absurd herror hfit
  | receives hchannel hsent => exact h.answer rfl (allows_restoreId (h.sent _ _ _ hchannel hsent) hfit)
  | receiveFails herror => exact h.answer rfl fun htruncated => absurd htruncated herror

end Sound

theorem sound_step (h : Sound p.shared p.threads)
    (hstep : p.step e = some p') : Sound p'.shared p'.threads := by
  rcases step_cases hstep with ⟨s', hread, rfl⟩ | ⟨request, rfl⟩ | ⟨t, c, s', ts, rest, hp, hact, rfl⟩
  · exact h.read hread
  · refine { h with fits := fun u hu => ?_ }
    rcases mem_cons.mp hu with rfl | hu
    · trivial
    · exact h.fits u hu
  · exact (h.perm hp).act hact

theorem sound_run (hrun : run Queries.step (.start nextId) es = some p) : Sound p.shared p.threads := by
  have hstart : Sound (Queries.start nextId).shared (Queries.start nextId).threads :=
    ⟨.nil, nofun, .nil, nofun, .nil, nofun, nofun, trivial, nofun, nofun⟩
  exact run_inv (fun p : Queries => Sound p.shared p.threads) (fun _ => True)
    (fun _ _ _ _ => sound_step) (fun _ _ => trivial) hstart hrun

/-! ## Ids and messages -/

def Thread.registered (s : Mux) : Thread → Option UInt16
  | .query _ => none
  | .send channel id _ _ | .unregister channel id _ | .receive channel id _ =>
    if s.pending.lookup id = some channel then some id else none

theorem Thread.registered_eq_some (h : t.registered s = some id) :
    ∃ channel, t.channel = some channel ∧ s.pending.lookup id = some channel := by
  cases t with
  | query => cases h
  | send channel | unregister channel | receive channel =>
    obtain ⟨hlookup, heq⟩ := Option.ite_none_right_eq_some.mp h
    cases heq
    exact ⟨channel, rfl, hlookup⟩

theorem Sound.registered_nodup (h : Sound s ts) : (ts.filterMap (Thread.registered s)).Nodup := by
  have hchannels := pairwise_filterMap.mp (nodup_append.mp h.owners).1
  grind [Thread.registered_eq_some]

theorem Sound.lookup_inj (h : Sound s ts) {id' : UInt16} {channel : Nat}
    (hid : s.pending.lookup id = some channel) (hid' : s.pending.lookup id' = some channel) : id = id' := by
  by_contra hne
  have hperm := (Map.entries_perm_erase hid).map Sigma.snd
  have hnodup := hperm.nodup_iff.mp (nodup_append.mp h.senders).1
  refine (nodup_cons.mp hnodup).1 (mem_map.mpr ⟨⟨id', channel⟩, ?_, rfl⟩)
  refine AList.mem_lookup_iff.mp (Option.mem_def.mpr ?_)
  rw [AList.lookup_erase_ne (Ne.symm hne)]
  exact hid'

theorem Sound.lt_of_lookup (h : Sound s ts) {channel : Nat}
    (hid : s.pending.lookup id = some channel) : channel < s.channels.length := by
  refine h.known channel (mem_append_left _ (mem_map.mpr ⟨⟨id, channel⟩, ?_, rfl⟩))
  exact AList.mem_lookup_iff.mp (Option.mem_def.mpr hid)

theorem Mux.unregister_frame (s : Mux) (id : UInt16) :
    (s.unregister id).datagrams = s.datagrams ∧ (s.unregister id).completed = s.completed ∧
    (s.unregister id).returned = s.returned := by
  unfold Mux.unregister
  split <;> exact ⟨rfl, rfl, rfl⟩

/-- Queries leave it to the reader to receive and to complete. -/
theorem Acts.frame {s s' : Mux} (h : Acts s t c s' ts) :
    s'.datagrams = s.datagrams ∧ s'.completed = s.completed := by
  cases h with
  | unregisters =>
    obtain ⟨hdatagrams, hcompleted, -⟩ := s.unregister_frame _
    exact ⟨hdatagrams, hcompleted⟩
  | _ => exact ⟨rfl, rfl⟩

/-- The event is not a datagram of less than two bytes. -/
def Event.Whole : Event → Prop
  | .datagram bytes => 2 ≤ bytes.length
  | _ => True

instance : ∀ e : Event, Decidable e.Whole
  | .datagram bytes => inferInstanceAs (Decidable (2 ≤ bytes.length))
  | .recvError _ | .reader | .query _ => .isTrue trivial

theorem whole_step (he : e.Whole)
    (h : ∀ datagram ∈ p.shared.datagrams, 2 ≤ datagram.length) (hstep : p.step e = some p') :
    ∀ datagram ∈ p'.shared.datagrams, 2 ≤ datagram.length := by
  rcases step_cases hstep with ⟨s', hread, rfl⟩ | ⟨request, rfl⟩ | ⟨t, c, s', ts, rest, hp, hact, rfl⟩
  · cases hread with
    | receives =>
      intro datagram hd
      rcases mem_append.mp hd with hd | hd
      · exact h datagram hd
      · rw [mem_singleton.mp hd, length_take]
        exact Nat.le_min.mpr ⟨Nat.le_of_ble_eq_true rfl, he⟩
    | _ => exact h
  · exact h
  · exact hact.frame.1 ▸ h

theorem whole_run (hwhole : ∀ e ∈ es, e.Whole) (hrun : run Queries.step (.start nextId) es = some p) :
    ∀ datagram ∈ p.shared.datagrams, 2 ≤ datagram.length := by
  have hstart : ∀ datagram ∈ (Queries.start nextId).shared.datagrams, 2 ≤ datagram.length := nofun
  exact run_inv (fun p : Queries => ∀ datagram ∈ p.shared.datagrams, 2 ≤ datagram.length) Event.Whole
    (fun _ _ _ => whole_step) hwhole hstart hrun

/-- The id the reader reads is that of the message, if the message has one; the query it
    completes is the one registered there. -/
theorem completes_registered {message channel : Nat}
    (h : Sound p.shared p.threads) (hwhole : ∀ datagram ∈ p.shared.datagrams, 2 ≤ datagram.length)
    (hstep : p.step e = some p') (hnew : (message, channel) ∈ p'.shared.completed)
    (hold : (message, channel) ∉ p.shared.completed) :
    ∃ datagram id, p.shared.datagrams[message]? = some datagram ∧ dnsId datagram = .ok id ∧
      p.shared.pending.lookup id = some channel := by
  rcases step_cases hstep with ⟨s', hread, rfl⟩ | ⟨request, rfl⟩ | ⟨t, c, s', ts, rest, hp, hact, rfl⟩
  · cases hread with
    | @takes message' length id channel' hreader hid hlookup =>
      cases mem_singleton.mp ((mem_append.mp hnew).resolve_left hold)
      have hfits := h.reader
      rw [hreader] at hfits
      refine ⟨_, id, hfits.1, ?_, hlookup⟩
      rw [dnsId_of_take (hwhole _ (mem_of_getElem? hfits.1))]
      exact hid
    | _ => exact absurd hnew hold
  · exact absurd hnew hold
  · exact absurd (hact.frame.2 ▸ hnew) hold

theorem Reads.returned (h : Reads s e s') : s'.returned = s.returned := by
  cases h <;> rfl

/-- A query is refused for want of an id only after all candidates. -/
theorem Acts.exhausted (h : Acts s t c s' ts) (hreturned : s'.returned = s.returned ++ [(none, .error .exhausted)]) :
    ∃ nextId, selectId s.pending 65536 s.nextId = (none, nextId) := by
  cases h with
  | exhausts hselect => exact ⟨_, hselect⟩
  | unregisters => simp [Mux.finish, (s.unregister_frame _).2.2] at hreturned
  | _ => simp [Mux.finish] at hreturned

theorem exhausted_all_used (hstep : p.step e = some p')
    (hreturned : p'.shared.returned = p.shared.returned ++ [(none, .error .exhausted)]) (id : UInt16) :
    id ∈ p.shared.pending := by
  rcases step_cases hstep with ⟨s', hread, rfl⟩ | ⟨request, rfl⟩ | ⟨t, c, s', ts, rest, hp, hact, rfl⟩
  · rw [hread.returned] at hreturned
    simp at hreturned
  · simp at hreturned
  · obtain ⟨nextId, hselect⟩ := hact.exhausted hreturned
    exact mem_of_selectId_none hselect id

/-- If every datagram has at least two bytes: no two queries are registered under one id; a
    message completes one query at most and a query is completed by one message at most;
    a query returns once, what it returns is a message that completed it with the id of
    its request put back, and none fails on a message that is too short. A step that
    completes a query does so with a message under whose id the query is registered, and a
    step that refuses a query finds all ids in use. -/
theorem no_cross_talk (nextId : UInt32) (es : List Event) (p : Queries) (hwhole : ∀ e ∈ es, e.Whole)
    (hrun : run Queries.step (.start nextId) es = some p) :
    (p.threads.filterMap (Thread.registered p.shared)).Nodup ∧
    (p.shared.completed.map Prod.fst).Nodup ∧ (p.shared.completed.map Prod.snd).Nodup ∧
    (p.shared.returned.filterMap Prod.fst).Nodup ∧
    (∀ channel response, (some channel, .ok response) ∈ p.shared.returned →
      ∃ datagram originalId, p.shared.CompletedBy channel datagram ∧ p.shared.Asked channel originalId ∧
        response = overwrite datagram 0 (beU16 originalId)) ∧
    (∀ channel, (some channel, .error .truncated) ∉ p.shared.returned) ∧
    ∀ e p', p.step e = some p' →
      (∀ message channel, (message, channel) ∈ p'.shared.completed →
        (message, channel) ∉ p.shared.completed →
        ∃ datagram id, p.shared.datagrams[message]? = some datagram ∧ dnsId datagram = .ok id ∧
          p.shared.pending.lookup id = some channel) ∧
      (p'.shared.returned = p.shared.returned ++ [(none, .error .exhausted)] →
        ∀ id, id ∈ p.shared.pending) := by
  have h := sound_run hrun
  have hdatagrams := whole_run hwhole hrun
  refine ⟨h.registered_nodup, h.messages, (nodup_append.mp h.senders).2.1,
    (nodup_append.mp h.owners).2.1, fun channel response => h.returned channel (.ok response), ?_, ?_⟩
  · intro channel hr
    obtain ⟨datagram, ⟨message, -, hmessage⟩, hlt⟩ := h.returned channel _ hr rfl
    have hle := hdatagrams datagram (mem_of_getElem? hmessage)
    omega
  grind [completes_registered, exhausted_all_used]

/-- Two queries of one id, answered in the other order. -/
def answered : List Event :=
  [.query (.spawn (.query [0, 7, 1])), .query (.act 0 .go), .query (.act 0 .go),
   .query (.spawn (.query [0, 7, 2])), .query (.act 0 .go), .query (.act 0 .go),
   .datagram [255, 255, 8], .reader, .reader, .query (.act 1 .go),
   .datagram [0, 0, 9], .reader, .reader, .query (.act 0 .go)]

theorem no_cross_talk_answered :
    ∃ p, run Queries.step (.start 65535) answered = some p ∧
      p.shared.returned = [(some 0, .ok [0, 7, 8]), (some 1, .ok [0, 7, 9])] ∧
      (p.shared.completed.map Prod.snd).Nodup := by
  obtain ⟨p, hrun, hreturned⟩ : ∃ p, run Queries.step (.start 65535) answered = some p ∧
      p.shared.returned = [(some 0, .ok [0, 7, 8]), (some 1, .ok [0, 7, 9])] := ⟨_, rfl, by rfl⟩
  exact ⟨p, hrun, hreturned, (no_cross_talk 65535 answered p (by decide) hrun).2.2.1⟩

/-- The first datagram is empty; the buffer still holds the zeros it was made of. -/
def runt : List Event :=
  [.query (.spawn (.query [0, 7, 1])), .query (.act 0 .go), .query (.act 0 .go),
   .datagram [], .reader, .reader, .query (.act 0 .go)]

/-- The empty datagram completes the query registered under 0, which then fails. -/
theorem runt_completes_query :
    ∃ p, run Queries.step (.start 0) runt = some p ∧ p.shared.completed = [(0, 0)] ∧
      p.shared.datagrams = [[]] ∧ (∀ id, dnsId [] ≠ .ok id) ∧
      p.shared.returned = [(some 0, .error .truncated)] :=
  ⟨_, rfl, by decide +kernel, by rfl, nofun, by rfl⟩

/-- **Short datagrams.** Whenever the reader has received a datagram, it completes no query but the one of the
    datagram's id, and none if the datagram is too short for an id, exactly if the datagram has an id or no
    query is pending under what the buffer now starts with. -/
theorem short_datagram_ignored_iff {nextId : UInt32} {es : List Event} {p : Queries} {message length : Nat}
    (hrun : run Queries.step (.start nextId) es = some p) (hreader : p.shared.reader = .dispatch message length) :
    ∃ datagram s', p.shared.datagrams[message]? = some datagram ∧ p.shared.read = some s' ∧
      ((datagram.length < 2 → s'.pending = p.shared.pending) ∧
        (∀ id ∈ p.shared.pending, id ∉ s'.pending → dnsId datagram = .ok id) ↔
      2 ≤ datagram.length ∨ ∀ id, dnsId p.shared.buffer = .ok id → id ∉ p.shared.pending) := by
  have hfits := (sound_run hrun).reader
  rw [hreader] at hfits
  by_cases hfree : ∀ id, dnsId p.shared.buffer = .ok id → id ∉ p.shared.pending
  · have hread : p.shared.read = some { p.shared with reader := .recv } := by
      rw [Mux.read, hreader]
      cases hid : dnsId p.shared.buffer with
      | error e => rfl
      | ok id => simp [AList.lookup_eq_none.mpr (hfree id hid)]
    exact ⟨_, _, hfits.1, hread, iff_of_true ⟨fun _ => rfl, fun id hid hnot => absurd hid hnot⟩ (.inr hfree)⟩
  · push Not at hfree
    obtain ⟨id, hid, hmem⟩ := hfree
    obtain ⟨channel, hlookup⟩ := Option.isSome_iff_exists.mp (AList.lookup_isSome.mpr hmem)
    refine ⟨_, _, hfits.1, by rw [Mux.read, hreader]; simp only [hid, hlookup]; rfl, ?_⟩
    by_cases hlength : 2 ≤ (p.shared.buffer.take length).length
    · refine iff_of_true ⟨fun h => absurd hlength (by omega), fun id' hid' hnot => ?_⟩ (.inl hlength)
      rw [dnsId_of_take hlength, hid]
      by_contra hne
      exact hnot (AList.mem_erase.mpr ⟨fun h => hne (by rw [h]), hid'⟩)
    · refine iff_of_false (fun h => ?_) fun h => h.resolve_left hlength id hid hmem
      have hsame := h.1 (by omega)
      exact (AList.mem_erase.mp (hsame ▸ hmem)).1 rfl

/-- One byte of the id has arrived now, the other one came with the datagram before. -/
theorem stale_byte_completes_query : ∃ p s',
    run Queries.step (.start 258)
      [.query (.spawn (.query [0, 7])), .query (.act 0 .go), .datagram [9, 2], .reader, .datagram [1]] = some p ∧
      p.shared.datagrams = [[9, 2], [1]] ∧ p.shared.read = some s' ∧ p.shared.pending.keys = [258] ∧
        s'.pending.keys = [] :=
  ⟨_, _, rfl, by rfl, rfl, by decide +kernel, by decide +kernel⟩

/-- A query stays pending, since one byte makes another id of what was there. -/
theorem short_datagram_ignored_iff_pending : ∃ p s', run Queries.step (.start 258)
      [.query (.spawn (.query [0, 7])), .query (.act 0 .go), .datagram [9, 2], .reader, .datagram [7]] = some p ∧
    p.shared.datagrams[1]? = some [7] ∧ p.shared.pending.keys = [258] ∧ p.shared.read = some s' ∧
      s'.pending = p.shared.pending := by
  obtain ⟨datagram, s', hdatagram, hread, h⟩ := @short_datagram_ignored_iff 258
    [.query (.spawn (.query [0, 7])), .query (.act 0 .go), .datagram [9, 2], .reader, .datagram [7]] _ 1 1 rfl rfl
  obtain rfl : [7] = datagram := Option.some.inj hdatagram
  refine ⟨_, s', rfl, rfl, by decide +kernel, hread, (h.mpr (.inr fun id hid => ?_)).1 (by decide)⟩
  obtain rfl : 1794 = id := Except.ok.inj hid
  decide +kernel

end Xhttp.Dns.Multiplexer
