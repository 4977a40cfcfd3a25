import Xhttp.Lib.Map
import Xhttp.Lib.Run
import Xhttp.Lib.Bytes

/- The reorder loop of `download` (`src/server.rs`): uploaded packets arrive in any order, and the loop writes their
   payloads to the backend in sequence order, holding later ones in `pending`. Each test of the condition of the
   inner loop is an event. `pending` is a `BTreeMap<u64, Bytes>`; only its keyed operations are used, so an association
   list with distinct keys stands for it. -/
namespace Xhttp.Server.Reorder
open Xhttp.Lib List

/-! ## In-order reassembly -/

section
variable {β : Type}

/-- The `i`-th entry of `out` is one of the payloads received under number `i`. -/
def InOrder (received : List (Nat × β)) (out : List β) : Prop :=
  ∀ i v, out[i]? = some v → (i, v) ∈ received

/-- Nothing more can be delivered: the next number has not been received. -/
def Complete (received : List (Nat × β)) (out : List β) : Prop := ∀ v, (out.length, v) ∉ received

theorem Complete.covers {received : List (Nat × β)} {out : List β} (h : Complete received out)
    {n : Nat} (hall : ∀ i, i ≤ n → ∃ v, (i, v) ∈ received) : n < out.length := by
  apply Nat.lt_of_not_le
  intro hle
  obtain ⟨v, hv⟩ := hall out.length hle
  exact h v hv

end

/-! ## The loop -/

structure Packet where
  sequence : UInt64
  payload : Bytes
  deriving DecidableEq, Repr

/-- Where the loop stands: at `recv`, inside the inner `while let`, after the
    channel closed and the backend was shut down, or after `remove_session`. -/
inductive Phase where
  | receiving
  | draining
  | finished
  | dropped
  deriving DecidableEq, Repr

/-- `writes` lists the `write_all` calls that succeeded, oldest first, each with
    the key its payload was removed under. -/
structure Loop where
  phase : Phase
  pending : AList (fun _ : UInt64 => Bytes)
  next : UInt64
  writes : List (UInt64 × Bytes)

inductive Event where
  | recv (packet : Packet)
  | closed
  | drain (writeOk : Bool)
  deriving DecidableEq, Repr

def Loop.start : Loop := { phase := .receiving, pending := ∅, next := 0, writes := [] }

def Loop.pendingLen (s : Loop) : Nat := Map.size s.pending

def Loop.output (s : Loop) : Bytes := s.writes.flatMap (·.2)

/-- One packet, up to `pending.insert`. -/
def receive (maxBufferedPackets : Nat) (s : Loop) (packet : Packet) : Loop :=
  if packet.sequence < s.next then s
  else if maxBufferedPackets ≤ s.pendingLen ∧ packet.sequence ∉ s.pending then
    { s with phase := .dropped }
  else { s with pending := s.pending.insert packet.sequence packet.payload, phase := .draining }

/-- One test of `while let Some(payload) = pending.remove(&next)` with the body
    that follows it; only the last of `2^64` packets makes `next` overflow. -/
def drain (s : Loop) (writeOk : Bool) : Loop :=
  match s.pending.lookup s.next with
  | none => { s with phase := .receiving }
  | some payload =>
    if writeOk then
      { s with pending := s.pending.erase s.next, next := s.next + 1,
               writes := s.writes ++ [(s.next, payload)] }
    else { s with pending := s.pending.erase s.next, phase := .dropped }

def step (maxBufferedPackets : Nat) (s : Loop) : Event → Option Loop
  | .recv packet => if s.phase = .receiving then some (receive maxBufferedPackets s packet) else none
  | .closed => if s.phase = .receiving then some { s with phase := .finished } else none
  | .drain writeOk => if s.phase = .draining then some (drain s writeOk) else none

def packetsOf : List Event → List Packet
  | [] => []
  | .recv packet :: es => packet :: packetsOf es
  | _ :: es => packetsOf es

theorem packetsOf_append (es fs : List Event) : packetsOf (es ++ fs) = packetsOf es ++ packetsOf fs := by
  induction es with
  | nil => rfl
  | cons e es ih => cases e <;> simp [packetsOf, ih]

/-- The events under which the loop's guarantees are stated: no write fails, and
    no packet carries the last sequence number, past which `next` would overflow. -/
def Benign : Event → Prop
  | .recv packet => packet.sequence.toNat < 2^64 - 1
  | .closed => True
  | .drain writeOk => writeOk = true

def numbered (ps : List Packet) : List (Nat × Bytes) := ps.map fun p => (p.sequence.toNat, p.payload)

/-! ## The invariant -/

/-- What holds of the loop after the packets `received`. -/
structure Inv (maxBufferedPackets : Nat) (received : List Packet) (s : Loop) : Prop where
  /-- The writes are numbered `0, 1, …, next - 1`. -/
  sequential : s.writes.map (·.1.toNat) = List.range s.next.toNat
  written : ∀ w ∈ s.writes, ⟨w.1, w.2⟩ ∈ received
  buffered : ∀ k v, s.pending.lookup k = some v → ⟨k, v⟩ ∈ received
  ahead : ∀ k ∈ s.pending, s.next ≤ k
  bounded : s.pendingLen ≤ maxBufferedPackets
  /-- Outside the inner loop the next sequence is not waiting in `pending`. -/
  drained : s.phase = .receiving ∨ s.phase = .finished → s.next ∉ s.pending
  /-- Until the session is dropped no packet is lost. -/
  kept : s.phase ≠ .dropped → ∀ p ∈ received, p.sequence < s.next ∨ p.sequence ∈ s.pending

section
variable {s : Loop} {max : Nat} {received : List Packet}

theorem Inv.start : Inv max [] Loop.start where
  sequential := by simp [Loop.start]
  written := by simp [Loop.start]
  buffered := by simp [Loop.start]
  ahead := by simp [Loop.start]
  bounded := by simp [Loop.start, Loop.pendingLen]
  drained := by simp [Loop.start]
  kept := by simp

theorem Inv.written_append (h : Inv max received s) (p : Packet) : ∀ w ∈ s.writes, ⟨w.1, w.2⟩ ∈ received ++ [p] :=
  fun w hw => mem_append_left [p] (h.written w hw)

theorem Inv.buffered_append (h : Inv max received s) (p : Packet) :
    ∀ k v, s.pending.lookup k = some v → ⟨k, v⟩ ∈ received ++ [p] :=
  fun k v hk => mem_append_left [p] (h.buffered k v hk)

variable {p : Packet}

variable (h : Inv max received s)
include h

theorem Inv.skip (hlt : p.sequence < s.next) : Inv max (received ++ [p]) s := by
  refine ⟨h.sequential, h.written_append p, h.buffered_append p, h.ahead, h.bounded, h.drained, ?_⟩
  intro hd q hq
  rcases mem_append.mp hq with hq | hq
  · exact h.kept hd q hq
  · rw [mem_singleton.mp hq]
    exact Or.inl hlt

theorem Inv.drop (p : Packet) : Inv max (received ++ [p]) { s with phase := .dropped } :=
  ⟨h.sequential, h.written_append p, h.buffered_append p, h.ahead, h.bounded, by simp, by simp⟩

theorem Inv.buffer (hph : s.phase = .receiving)
    (hge : s.next ≤ p.sequence) (hroom : p.sequence ∉ s.pending → s.pendingLen < max) : Inv max (received ++ [p])
      { s with pending := s.pending.insert p.sequence p.payload, phase := .draining } := by
  have hkept := h.kept (by rw [hph]; simp)
  refine ⟨h.sequential, h.written_append p, ?_, ?_, ?_, by simp, ?_⟩
  · intro k v hk
    obtain ⟨rfl, rfl⟩ | ⟨-, hk⟩ := Map.lookup_insert_cases hk
    · exact mem_append_right received (mem_singleton_self p)
    · exact h.buffered_append p k v hk
  · intro k hk
    rcases AList.mem_insert s.pending |>.mp hk with rfl | hk
    · exact hge
    · exact h.ahead k hk
  · -- a duplicate replaces its payload, anything else was let in below the bound
    by_cases hmem : p.sequence ∈ s.pending
    · rw [Loop.pendingLen, Map.size_insert_of_mem _ hmem]
      exact h.bounded
    · rw [Loop.pendingLen, Map.size_insert_of_notMem _ hmem]
      exact hroom hmem
  grind [AList.mem_insert, mem_singleton]

theorem Inv.receive (hph : s.phase = .receiving) (p : Packet) :
    Inv max (received ++ [p]) (receive max s p) := by
  unfold Reorder.receive
  split
  · next hlt => exact h.skip hlt
  · next hge =>
    split
    · exact h.drop p
    · next hroom =>
      apply h.buffer hph (UInt64.not_lt.mp hge)
      grind

/-- The keys that stay after `pending.remove(&next)` are past `next`. -/
theorem Inv.lt_of_mem_erase {k : UInt64} (hk : k ∈ s.pending.erase s.next) : s.next < k := by
  obtain ⟨hne, hmem⟩ := AList.mem_erase.mp hk
  exact UInt64.lt_of_le_of_ne (h.ahead k hmem) (Ne.symm hne)

/-- `pending.remove(&next)` found a payload and it was written. -/
theorem Inv.deliver (hph : s.phase = .draining)
    (hsmall : ∀ p ∈ received, p.sequence.toNat < 2^64 - 1) {payload : Bytes}
    (hl : s.pending.lookup s.next = some payload) :
    Inv max received { s with pending := s.pending.erase s.next, next := s.next + 1,
                              writes := s.writes ++ [(s.next, payload)] } := by
  have hkept := h.kept (by rw [hph]; simp)
  have hrec := h.buffered _ _ hl
  -- `next` was received as a sequence, so adding one does not overflow
  have hnext : (s.next + 1).toNat = s.next.toNat + 1 := by
    have hlt : s.next.toNat < 2^64 - 1 := hsmall _ hrec
    rw [UInt64.toNat_add, UInt64.toNat_one]
    omega
  refine ⟨?_, ?_, ?_, ?_, ?_, by simp [hph], ?_⟩
  · simp [h.sequential, hnext, range_succ]
  · intro w hw
    rcases mem_append.mp hw with hw | hw
    · exact h.written w hw
    · rw [mem_singleton.mp hw]
      exact hrec
  · intro k v hk
    exact h.buffered k v (Map.lookup_of_lookup_erase hk)
  · intro k hk
    have hlt := UInt64.lt_iff_toNat_lt.mp (h.lt_of_mem_erase hk)
    rw [UInt64.le_iff_toNat_le, hnext]
    exact hlt
  · have hlen := Map.size_erase_of_mem (Map.mem_of_lookup hl)
    have hb := h.bounded
    simp only [Loop.pendingLen] at hb ⊢
    omega
  · intro _ p hp
    rw [UInt64.lt_iff_toNat_lt, hnext]
    rcases hkept p hp with hlt | hm
    · exact Or.inl (Nat.lt_succ_of_lt (UInt64.lt_iff_toNat_lt.mp hlt))
    · by_cases hpn : p.sequence = s.next
      · exact Or.inl (by rw [hpn]; exact Nat.lt_succ_self _)
      · exact Or.inr (AList.mem_erase.mpr ⟨hpn, hm⟩)

theorem Inv.drain (hph : s.phase = .draining)
    (hsmall : ∀ p ∈ received, p.sequence.toNat < 2^64 - 1) : Inv max received (drain s true) := by
  unfold Reorder.drain
  cases hl : s.pending.lookup s.next with
  | none =>
    have hkept := h.kept (by rw [hph]; simp)
    refine ⟨h.sequential, h.written, h.buffered, h.ahead, h.bounded, ?_, fun _ => hkept⟩
    intro _
    exact AList.lookup_eq_none.mp hl
  | some payload => exact h.deliver hph hsmall hl

end

variable {max : Nat}

theorem step_inv (es : List Event) (s : Loop) (e : Event) (s' : Loop) (he : Benign e)
    (h : Inv max (packetsOf es) s ∧ ∀ p ∈ packetsOf es, p.sequence.toNat < 2^64 - 1) (hs : step max s e = some s') :
    Inv max (packetsOf (es ++ [e])) s' ∧
      ∀ p ∈ packetsOf (es ++ [e]), p.sequence.toNat < 2^64 - 1 := by
  obtain ⟨hinv, hsmall⟩ := h
  rw [packetsOf_append]
  cases e with
  | recv packet =>
    simp only [step] at hs
    split at hs
    · rename_i hph
      cases hs
      refine ⟨hinv.receive hph packet, ?_⟩
      intro p hp
      rcases mem_append.mp hp with hp | hp
      · exact hsmall p hp
      · simp only [packetsOf, mem_singleton] at hp
        subst hp
        exact he
    · cases hs
  | closed =>
    simp only [step] at hs
    split at hs
    · rename_i hph
      cases hs
      simp only [packetsOf, append_nil]
      have hkept := hinv.kept (by rw [hph]; simp)
      have hdrained := hinv.drained (Or.inl hph)
      exact ⟨⟨hinv.sequential, hinv.written, hinv.buffered, hinv.ahead, hinv.bounded,
        fun _ => hdrained, fun _ => hkept⟩, hsmall⟩
    · cases hs
  | drain writeOk =>
    simp only [step] at hs
    split at hs
    · rename_i hph
      cases hs
      have hok : writeOk = true := he
      subst hok
      simp only [packetsOf, append_nil]
      exact ⟨hinv.drain hph hsmall, hsmall⟩
    · cases hs

theorem run_inv {es : List Event} (hes : ∀ e ∈ es, Benign e) (hr : run (step max) Loop.start es = some s) :
    Inv max (packetsOf es) s ∧ ∀ p ∈ packetsOf es, p.sequence.toNat < 2^64 - 1 :=
  run_history (fun h s => Inv max (packetsOf h) s ∧ ∀ p ∈ packetsOf h, p.sequence.toNat < 2^64 - 1)
    Benign step_inv es [] Loop.start s hes ⟨Inv.start, by simp [packetsOf]⟩ hr

/-! ## The inner loop ends -/

theorem step_drain (hph : s.phase = .draining) (writeOk : Bool) :
    step max s (.drain writeOk) = some (drain s writeOk) := by
  simp [step, hph]

/-- The inner loop ends: each round removes an entry of `pending`, so at most
    `pending.len() + 1` tests lead back to `recv`. Nothing written is taken back. -/
theorem drain_returns (max : Nat) : ∀ (n : Nat) (s : Loop), s.pendingLen = n → s.phase = .draining →
    ∃ k s', k ≤ n + 1 ∧ run (step max) s (List.replicate k (.drain true)) = some s' ∧
      s'.phase = .receiving ∧ s.writes <+: s'.writes := by
  intro n
  -- induction on `pending.len()`; with nothing pending the first test fails
  induction n with
  | zero =>
    intro s hn hph
    have hl : s.pending.lookup s.next = none := by
      rw [AList.lookup_eq_none]
      intro hm
      have := Map.size_pos_of_mem hm
      rw [Loop.pendingLen] at hn
      omega
    refine ⟨1, { s with phase := .receiving }, Nat.le_refl 1, ?_, rfl, prefix_refl _⟩
    rw [replicate_one, run_cons_eq_some]
    exact ⟨_, step_drain hph true, by simp [drain, hl]⟩
  | succ n ih =>
    intro s hn hph
    cases hl : s.pending.lookup s.next with
    | none =>
      refine ⟨1, { s with phase := .receiving }, by omega, ?_, rfl, prefix_refl _⟩
      rw [replicate_one, run_cons_eq_some]
      exact ⟨_, step_drain hph true, by simp [drain, hl]⟩
    | some payload =>
      have hlen := Map.size_erase_of_mem (Map.mem_of_lookup hl)
      have hdrain : drain s true =
          { s with pending := s.pending.erase s.next, next := s.next + 1,
                   writes := s.writes ++ [(s.next, payload)] } := by
        simp [drain, hl]
      obtain ⟨k, s', hk, hr, hph', hpre⟩ := ih (drain s true)
        (by rw [hdrain]; simp only [Loop.pendingLen] at hn ⊢; omega) (by rw [hdrain]; exact hph)
      refine ⟨k + 1, s', by omega, ?_, hph', ?_⟩
      · rw [replicate_succ, run_cons_eq_some]
        exact ⟨_, step_drain hph true, hr⟩
      grind [prefix_append]

/-! ## Delivery -/

section
variable {max : Nat} {received : List Packet}

variable (h : Inv max received s)
include h

theorem Inv.length_writes : s.writes.length = s.next.toNat := by
  have := congrArg List.length h.sequential
  simpa using this

theorem Inv.inOrder : InOrder (numbered received) (s.writes.map (·.2)) := by
  intro i v hi
  rw [getElem?_map, Option.map_eq_some_iff] at hi
  obtain ⟨w, hw, rfl⟩ := hi
  have hseq : (s.writes.map (·.1.toNat))[i]? = some w.1.toNat := by rw [getElem?_map, hw]; rfl
  rw [h.sequential, getElem?_eq_some_iff] at hseq
  obtain ⟨_, hseq⟩ := hseq
  rw [getElem_range] at hseq
  have hmem := h.written w (mem_of_getElem? hw)
  exact mem_map.mpr ⟨_, hmem, by rw [hseq]⟩

theorem Inv.complete (hph : s.phase = .receiving ∨ s.phase = .finished) :
    Complete (numbered received) (s.writes.map (·.2)) := by
  intro v hv
  obtain ⟨p, hp, heq⟩ := mem_map.mp hv
  rw [length_map, h.length_writes, Prod.mk.injEq] at heq
  have hpn : p.sequence = s.next := UInt64.toNat_inj.mp heq.1
  have hnd : s.phase ≠ .dropped := by rcases hph with hph | hph <;> rw [hph] <;> simp
  rcases h.kept hnd p hp with hlt | hm
  · rw [hpn] at hlt
    exact absurd hlt (UInt64.lt_irrefl _)
  · rw [hpn] at hm
    exact h.drained hph hm

end

/-- **Uploads are delivered in order.** At every point of every run in which no
    write fails and no packet carries the last sequence number: the bytes written
    are the payloads of the sequences `0, …, next - 1` in that order, each one
    received under its sequence and each sequence written once; `pending` never
    outgrows its bound; after the inner loop every key of `pending` is past
    `next`, and if every sequence up to `n` has arrived all of them have been
    written. The inner loop always gets there. -/
theorem reorder_in_order (max : Nat) (es : List Event) {s : Loop} (hes : ∀ e ∈ es, Benign e)
    (hr : run (step max) Loop.start es = some s) :
    (∃ chosen : List Bytes, s.output = chosen.flatten ∧ chosen.length = s.next.toNat ∧
      InOrder (numbered (packetsOf es)) chosen) ∧
    s.writes.map (·.1.toNat) = List.range s.next.toNat ∧
    s.pendingLen ≤ max ∧
    (s.phase = .receiving ∨ s.phase = .finished →
      (∀ k ∈ s.pending, s.next < k) ∧
      ∀ n, (∀ i, i ≤ n → ∃ p ∈ packetsOf es, p.sequence.toNat = i) → n < s.next.toNat) ∧
    (s.phase = .draining → ∃ k s', k ≤ s.pendingLen + 1 ∧
      run (step max) s (List.replicate k (.drain true)) = some s' ∧ s'.phase = .receiving) := by
  obtain ⟨h, -⟩ := run_inv hes hr
  refine ⟨⟨s.writes.map (·.2), ?_, ?_, h.inOrder⟩, h.sequential, h.bounded, ?_, ?_⟩
  · rw [Loop.output, flatMap_def]
  · rw [length_map, h.length_writes]
  · intro hph
    constructor
    · intro k hk
      apply UInt64.lt_of_le_of_ne (h.ahead k hk)
      rintro rfl
      exact h.drained hph hk
    · intro n hall
      have hcov := (h.complete hph).covers (n := n) (fun i hi => by
        obtain ⟨p, hp, hpi⟩ := hall i hi
        exact ⟨p.payload, mem_map.mpr ⟨p, hp, by rw [hpi]⟩⟩)
      rwa [length_map, h.length_writes] at hcov
  · intro hph
    obtain ⟨k, s', hk, hrun, hph', -⟩ := drain_returns max _ s rfl hph
    exact ⟨k, s', hk, hrun, hph'⟩

/-- Two packets in reverse order: both are written once the first one arrives. -/
theorem reorder_in_order_swapped :
    ∃ s, run (step 2) Loop.start [.recv ⟨1, [98]⟩, .drain true, .recv ⟨0, [97]⟩, .drain true,
        .drain true, .drain true] = some s ∧ s.output = [97, 98] ∧
      s.writes.map (·.1.toNat) = List.range s.next.toNat := by
  refine ⟨_, rfl, rfl, (reorder_in_order 2 [.recv ⟨1, [98]⟩, .drain true, .recv ⟨0, [97]⟩,
    .drain true, .drain true, .drain true] ?_ rfl).2.1⟩
  simp [mem_cons, not_mem_nil, or_false, Benign]

/-! ## Progress -/

/-- Receiving `p` at `recv` gets it written and the loop back to `recv`. -/
def Accepts (max : Nat) (s : Loop) (p : Packet) : Prop :=
  ∃ k s', run (step max) s (.recv p :: List.replicate k (.drain true)) = some s' ∧
    s'.phase = .receiving ∧ (p.sequence, p.payload) ∈ s'.writes

theorem run_drain_of_dropped {s' : Loop} {k : Nat} (hph : s.phase = .dropped)
    (hr : run (step max) s (List.replicate k (.drain true)) = some s') : s' = s := by
  cases k with
  | zero => simpa [eq_comm] using hr
  | succ k =>
    obtain ⟨m, hm, -⟩ := run_cons_eq_some.mp hr
    simp [step, hph] at hm

/-- With a full buffer the packet the loop waits for drops the session. -/
theorem receive_next_full (hnext : p.sequence = s.next)
    (hnot : s.next ∉ s.pending) (hfull : max ≤ s.pendingLen) : receive max s p = { s with phase := .dropped } := by
  simp [receive, hfull, hnext, hnot]

/-- With room in the buffer it is inserted, and the inner loop writes it first. -/
theorem accepts_of_room (hph : s.phase = .receiving)
    (hnext : p.sequence = s.next) (hroom : s.pendingLen < max) : Accepts max s p := by
  have hlt : ¬ p.sequence < s.next := by rw [hnext]; exact UInt64.lt_irrefl _
  have hrecv : receive max s p =
      { s with pending := s.pending.insert p.sequence p.payload, phase := .draining } := by
    simp [receive, hlt, Nat.not_le_of_gt hroom]
  generalize ht : receive max s p = t at hrecv
  have htph : t.phase = .draining := by rw [hrecv]
  have hdrain : drain t true = { t with
      pending := t.pending.erase t.next, next := t.next + 1,
      writes := s.writes ++ [(p.sequence, p.payload)] } := by
    have hl : t.pending.lookup t.next = some p.payload := by
      rw [hrecv, ← hnext]; exact AList.lookup_insert _
    have htnext : t.next = p.sequence := by rw [hrecv, hnext]
    have hwrites : t.writes = s.writes := by rw [hrecv]
    simp only [drain, hl, if_true, hwrites, htnext]
  obtain ⟨k, s', -, hrun, hph', hpre⟩ :=
    drain_returns max _ (drain t true) rfl (by rw [hdrain]; exact htph)
  refine ⟨k + 1, s', ?_, hph', hpre.subset ?_⟩
  · simp_all [step, replicate_succ, run_cons_eq_some]
  · rw [hdrain]; simp

/-- The loop is at `recv` only after a failed `pending.remove(&next)`, also in runs
    with failing writes and wrapping sequence numbers. -/
theorem step_next_notMem (s : Loop) (e : Event) (s' : Loop)
    (h : s.phase = .receiving → s.next ∉ s.pending) (hs : step max s e = some s') :
    s'.phase = .receiving → s'.next ∉ s'.pending := by
  cases e with
  | recv packet =>
    grind [step, receive]
  | closed =>
    simp only [step] at hs
    split at hs
    · cases hs; simp
    · cases hs
  | drain writeOk =>
    grind [step, drain, AList.lookup_eq_none]

/-- **The awaited packet is accepted exactly when the buffer has room.** In every
    reachable state at `recv`, the packet whose sequence is `next` is written and
    the loop continues if and only if `pending` is below its bound. -/
theorem next_packet_accepted_iff (max : Nat) (es : List Event) (s : Loop) (p : Packet)
    (hr : run (step max) Loop.start es = some s) (hph : s.phase = .receiving)
    (hnext : p.sequence = s.next) : Accepts max s p ↔ s.pendingLen < max := by
  constructor
  · rintro ⟨k, s', hrun, hph', -⟩
    apply Nat.lt_of_not_le
    intro hfull
    obtain ⟨m, hm, hrest⟩ := run_cons_eq_some.mp hrun
    -- the capacity check comes first, and a dropped loop takes no further step
    have hnot := Lib.run_inv (fun s : Loop => s.phase = .receiving → s.next ∉ s.pending)
      (fun _ => True) (fun s e s' _ => step_next_notMem s e s') (fun _ _ => trivial)
      (by simp [Loop.start]) hr hph
    simp only [step, hph, if_true, Option.some.injEq, receive_next_full hnext hnot hfull] at hm
    subst hm
    rw [run_drain_of_dropped rfl hrest] at hph'
    cases hph'
  · exact accepts_of_room hph hnext

/-- A later packet is pending, and there is room for one more. -/
theorem next_packet_accepted_with_room :
    ∃ s, run (step 2) Loop.start [.recv ⟨1, [98]⟩, .drain true] = some s ∧ s.pending.keys = [1] ∧
      Accepts 2 s ⟨0, [97]⟩ :=
  ⟨_, rfl, rfl, (next_packet_accepted_iff 2 [.recv ⟨1, [98]⟩, .drain true] _ ⟨0, [97]⟩ rfl rfl rfl).mpr (by decide)⟩

/-- One later packet fills a buffer of one; the missing packet then drops the
    session instead of draining it. -/
theorem full_buffer_drops_next :
    ∃ s, run (step 1) Loop.start [.recv ⟨1, [98]⟩, .drain true] = some s ∧
      s.phase = .receiving ∧ s.next = 0 ∧ (receive 1 s ⟨0, [97]⟩).phase = .dropped ∧
      ¬ Accepts 1 s ⟨0, [97]⟩ := by
  refine ⟨_, rfl, rfl, rfl, rfl, ?_⟩
  rintro ⟨k, s', hrun, hph, -⟩
  obtain ⟨m, hm, hrest⟩ := run_cons_eq_some.mp hrun
  cases hm
  rw [run_drain_of_dropped rfl hrest] at hph
  cases hph

end Xhttp.Server.Reorder
