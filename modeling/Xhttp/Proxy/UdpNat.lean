import Mathlib.Data.Finset.Insert
import Mathlib.Data.List.Chain
import Mathlib.Data.List.MinMax
import Xhttp.Lib.Map
import Xhttp.Lib.Run
import Xhttp.Vless.Relay

/- The UDP NAT table (`src/proxy/udp_nat.rs`) over histories of calls.

   A session stores when it was last used, under which number of the use counter, and the
   destinations its key was touched with. What is said about it here is said in terms of the history
   alone: which calls were uses (`uses`), which use of a key was its last (`IsLastUse`), and which
   destinations were touched while the session was there (`TouchedSince`).

   A call reads the clock once; `elapsed` is the truncated difference. -/
namespace Xhttp.Proxy
open Xhttp.Lib Vless Vless.Relay List

/-! ## The table -/

inductive UdpNatBehavior where
  | endpointIndependent
  | addressDependent
  | addressAndPortDependent
  deriving DecidableEq, Repr

def UdpNatBehavior.parse (value : Option Str) (field : String) : Except Failure UdpNatBehavior :=
  let value := value.getD "endpoint_independent"
  if value = "endpoint_independent" then .ok .endpointIndependent
  else if value = "address_dependent" then .ok .addressDependent
  else if value = "address_and_port_dependent" then .ok .addressAndPortDependent
  else .error (.message ("unsupported UDP NAT " ++ field ++ ": " ++ String.ofList value))

inductive UdpMappingKey where
  | endpoint (source : SocketAddr)
  | address (source : SocketAddr) (ip : IpAddr)
  | addressAndPort (source destination : SocketAddr)
  deriving DecidableEq, Repr

structure UdpNatSession (Sender : Type) where
  sender : Option Sender
  allowedAddresses : Finset IpAddr
  allowedEndpoints : Finset SocketAddr
  lastUsed : Nat
  generation : UInt64

structure UdpNatTable (Sender : Type) where
  filtering : UdpNatBehavior
  maxSessions : Nat
  idleTimeout : Nat
  generation : UInt64
  sessions : AList fun _ : UdpMappingKey => UdpNatSession Sender

variable {Sender : Type} {t : UdpNatTable Sender} {k : UdpMappingKey}

namespace UdpNatTable

def new (filtering : UdpNatBehavior) (maxSessions idleTimeout : Nat) : UdpNatTable Sender :=
  { filtering, maxSessions, idleTimeout, generation := 0, sessions := ∅ }

def keyFor (mapping : UdpNatBehavior) (source destination : SocketAddr) : UdpMappingKey :=
  match mapping with
  | .endpointIndependent => .endpoint source
  | .addressDependent => .address source destination.ip
  | .addressAndPortDependent => .addressAndPort source destination

def expire (now : Nat) (t : UdpNatTable Sender) : UdpNatTable Sender :=
  { t with sessions := Map.retain (fun _ session => now - session.lastUsed < t.idleTimeout) t.sessions }

def evictLru (t : UdpNatTable Sender) : UdpNatTable Sender :=
  match t.sessions.entries.argmin (·.2.generation.toNat) with
  | some entry => { t with sessions := t.sessions.erase entry.1 }
  | none => t

def reclaimIfFull (now : Nat) (t : UdpNatTable Sender) : UdpNatTable Sender :=
  if Map.size t.sessions < t.maxSessions then t
  else if Map.size (t.expire now).sessions = Map.size t.sessions ∧ t.maxSessions ≤ Map.size (t.expire now).sessions then
    (t.expire now).evictLru
  else t.expire now

/-- `closed` is `Sender::is_closed` at the time of the call. -/
def touchAndSender (closed : Sender → Bool) (now : Nat) (key : UdpMappingKey) (destination : SocketAddr)
    (t : UdpNatTable Sender) : Option Sender × UdpNatTable Sender :=
  let t := if key ∈ t.sessions then t else t.reclaimIfFull now
  let generation := t.generation + 1
  let session := (t.sessions.lookup key).getD ⟨none, ∅, ∅, now, generation⟩
  let session := { session with
    lastUsed := now
    generation
    allowedAddresses := insert destination.ip session.allowedAddresses
    allowedEndpoints := insert destination session.allowedEndpoints }
  (session.sender.filter (!closed ·), { t with generation, sessions := t.sessions.insert key session })

def setSender (key : UdpMappingKey) (sender : Option Sender) (t : UdpNatTable Sender) : UdpNatTable Sender :=
  match t.sessions.lookup key with
  | some session => { t with sessions := t.sessions.insert key { session with sender } }
  | none => t

def insertSender (key : UdpMappingKey) (sender : Sender) (t : UdpNatTable Sender) : UdpNatTable Sender :=
  t.setSender key (some sender)

def clearSender (key : UdpMappingKey) (t : UdpNatTable Sender) : UdpNatTable Sender := t.setSender key none

/-- Whether the filter lets a response of `remote` through to the session. -/
def allows (filtering : UdpNatBehavior) (session : UdpNatSession Sender) (remote : SocketAddr) : Bool :=
  match filtering with
  | .endpointIndependent => true
  | .addressDependent => remote.ip ∈ session.allowedAddresses
  | .addressAndPortDependent => remote ∈ session.allowedEndpoints

def allowResponse (now : Nat) (key : UdpMappingKey) (remote : SocketAddr) (t : UdpNatTable Sender) :
    Bool × UdpNatTable Sender :=
  let t := t.expire now
  match t.sessions.lookup key with
  | none => (false, t)
  | some session =>
    if allows t.filtering session remote then
      let generation := t.generation + 1
      (true, { t with generation, sessions := t.sessions.insert key { session with lastUsed := now, generation } })
    else (false, t)

end UdpNatTable

/-! ## Histories -/

inductive NatOp (Sender : Type) where
  | touch (key : UdpMappingKey) (destination : SocketAddr) (closed : Sender → Bool)
  | insertSender (key : UdpMappingKey) (sender : Sender)
  | clearSender (key : UdpMappingKey)
  | allowResponse (key : UdpMappingKey) (remote : SocketAddr)
  | expire

structure NatCall (Sender : Type) where
  now : Nat
  op : NatOp Sender

namespace UdpNatTable

def step (t : UdpNatTable Sender) (c : NatCall Sender) : UdpNatTable Sender :=
  match c.op with
  | .touch key destination closed => (t.touchAndSender closed c.now key destination).2
  | .insertSender key sender => t.insertSender key sender
  | .clearSender key => t.clearSender key
  | .allowResponse key remote => (t.allowResponse c.now key remote).2
  | .expire => t.expire c.now

def after (t : UdpNatTable Sender) (calls : List (NatCall Sender)) : UdpNatTable Sender := calls.foldl step t

/-- The key whose mapping the call uses: a touch, or a response that is allowed. -/
def used (t : UdpNatTable Sender) (c : NatCall Sender) : Option UdpMappingKey :=
  match c.op with
  | .touch key _ _ => some key
  | .allowResponse key remote => if (t.allowResponse c.now key remote).1 then some key else none
  | _ => none

/-- The uses of a history, oldest first, with their times. -/
def uses (t : UdpNatTable Sender) : List (NatCall Sender) → List (UdpMappingKey × Nat)
  | [] => []
  | c :: calls => (t.used c).toList.map (·, c.now) ++ uses (t.step c) calls

end UdpNatTable

/-- The `i`-th use is the last one of `key`, and was at `time`. -/
def IsLastUse (uses : List (UdpMappingKey × Nat)) (key : UdpMappingKey) (i time : Nat) : Prop :=
  uses[i]? = some (key, time) ∧ ∀ j use, i < j → uses[j]? = some use → use.1 ≠ key

/-- The key was touched with `destination`, and its session has been in the table ever since. -/
def TouchedSince (t : UdpNatTable Sender) (calls : List (NatCall Sender)) (key : UdpMappingKey)
    (destination : SocketAddr) : Prop :=
  ∃ before c after closed, calls = before ++ c :: after ∧ c.op = .touch key destination closed ∧
    ∀ front back, after = front ++ back → key ∈ (t.after (before ++ c :: front)).sessions

/-! ## One call -/

namespace UdpNatTable
variable {c : NatCall Sender} {key : UdpMappingKey} {session session' : UdpNatSession Sender}
  {now : Nat}

theorem lookup_expire : (t.expire now).sessions.lookup k = some session ↔
    t.sessions.lookup k = some session ∧ now - session.lastUsed < t.idleTimeout := by
  simp [expire, Map.lookup_retain_eq_some]

theorem lookup_of_evictLru (h : t.evictLru.sessions.lookup k = some session) : t.sessions.lookup k = some session := by
  grind [evictLru, Map.lookup_of_lookup_erase]

theorem lookup_of_reclaimIfFull (h : (t.reclaimIfFull now).sessions.lookup k = some session) :
    t.sessions.lookup k = some session := by
  unfold reclaimIfFull at h
  split at h
  · exact h
  split at h
  · exact (lookup_expire.mp (lookup_of_evictLru h)).1
  · exact (lookup_expire.mp h).1

theorem evictLru_generation : t.evictLru.generation = t.generation := by
  unfold evictLru
  split <;> rfl

@[simp] theorem reclaimIfFull_generation : (t.reclaimIfFull now).generation = t.generation := by
  unfold reclaimIfFull
  split
  · rfl
  split
  · exact evictLru_generation
  · rfl

/-- The session of a touched key, before the destination is added. -/
def touched (t : UdpNatTable Sender) (key : UdpMappingKey) : Finset IpAddr × Finset SocketAddr :=
  match t.sessions.lookup key with
  | some session => (session.allowedAddresses, session.allowedEndpoints)
  | none => (∅, ∅)

/-- The two sets, the time and the generation of a session: everything but its sender. -/
def Same (session session' : UdpNatSession Sender) : Prop :=
  session' = { session with sender := session'.sender }

def room (now : Nat) (key : UdpMappingKey) (t : UdpNatTable Sender) : UdpNatTable Sender :=
  if key ∈ t.sessions then t else t.reclaimIfFull now

theorem lookup_of_room (h : (t.room now key).sessions.lookup k = some session) :
    t.sessions.lookup k = some session := by
  unfold room at h
  split at h
  · exact h
  · exact lookup_of_reclaimIfFull h

theorem lookup_room_self : (t.room now key).sessions.lookup key = t.sessions.lookup key := by
  unfold room
  split
  · rfl
  · next hnew =>
    have hnone : t.sessions.lookup key = none := AList.lookup_eq_none.mpr hnew
    cases h : (t.reclaimIfFull now).sessions.lookup key with
    | none => exact hnone.symm
    | some session => exact (lookup_of_reclaimIfFull h).symm

theorem touchAndSender_generation (closed : Sender → Bool) (destination : SocketAddr) :
    (t.touchAndSender closed now key destination).2.generation = t.generation + 1 := by
  show (if key ∈ t.sessions then t else t.reclaimIfFull now).generation + 1 = _
  split <;> simp

theorem touchAndSender_sessions (t : UdpNatTable Sender) (now : Nat) (key : UdpMappingKey) (closed : Sender → Bool)
    (destination : SocketAddr) :
    ∃ session, (t.touchAndSender closed now key destination).2.sessions = (t.room now key).sessions.insert key session ∧
      session.lastUsed = now ∧ session.generation = t.generation + 1 ∧
      session.allowedAddresses = insert destination.ip (t.touched key).1 ∧
      session.allowedEndpoints = insert destination (t.touched key).2 := by
  refine ⟨_, rfl, rfl, touchAndSender_generation closed destination, ?_⟩
  have hself : (if key ∈ t.sessions then t else t.reclaimIfFull now).sessions.lookup key = t.sessions.lookup key :=
    lookup_room_self
  grind [touched]

variable {sender : Option Sender}

theorem lookup_setSender (h : (t.setSender key sender).sessions.lookup k = some session') :
    ∃ session, t.sessions.lookup k = some session ∧ Same session session' := by
  unfold setSender at h
  split at h
  · next session hsession =>
    obtain ⟨rfl, rfl⟩ | ⟨-, h⟩ := Map.lookup_insert_cases h
    · exact ⟨session, hsession, rfl⟩
    · exact ⟨session', h, rfl⟩
  · exact ⟨session', h, rfl⟩

theorem setSender_generation : (t.setSender key sender).generation = t.generation := by
  unfold setSender
  split <;> rfl

/-- A response is refused, or it is allowed and counts as a use. -/
theorem allowResponse_cases (t : UdpNatTable Sender) (now : Nat) (key : UdpMappingKey) (remote : SocketAddr) :
    (t.allowResponse now key remote = (false, t.expire now) ∧ ∀ session, t.sessions.lookup key = some session →
      now - session.lastUsed < t.idleTimeout → allows t.filtering session remote = false) ∨
    ∃ session, t.sessions.lookup key = some session ∧ now - session.lastUsed < t.idleTimeout ∧
      allows t.filtering session remote = true ∧ t.allowResponse now key remote = (true, { t.expire now with
        generation := t.generation + 1
        sessions := (t.expire now).sessions.insert key
          { session with lastUsed := now, generation := t.generation + 1 } }) := by
  have hfiltering : (t.expire now).filtering = t.filtering := rfl
  cases hfound : (t.expire now).sessions.lookup key with
  | none =>
    grind [allowResponse, lookup_expire]
  | some session =>
    obtain ⟨hlookup, hlive⟩ := lookup_expire.mp hfound
    cases hallows : allows t.filtering session remote with
    | false =>
      simp_all [allowResponse]
    | true =>
      refine .inr ⟨session, hlookup, hlive, hallows, ?_⟩
      simp only [allowResponse, hfound, hfiltering, hallows, if_true]
      rfl

theorem allowResponse_true {remote : SocketAddr} : (t.allowResponse now key remote).1 = true ↔
    ∃ session, t.sessions.lookup key = some session ∧ now - session.lastUsed < t.idleTimeout ∧
      allows t.filtering session remote = true := by
  obtain ⟨heq, hnot⟩ | ⟨session, hlookup, hlive, hallows, heq⟩ := t.allowResponse_cases now key remote
  · simp_all
  · rw [heq]
    exact iff_of_true rfl ⟨session, hlookup, hlive, hallows⟩

/-- All that a call does to the session of a key: it is used, or only its sender may change. -/
theorem step_session (h : (t.step c).sessions.lookup k = some session') :
    (t.used c ≠ some k ∧ ∃ session, t.sessions.lookup k = some session ∧ Same session session') ∨
    (t.used c = some k ∧ session'.lastUsed = c.now ∧ session'.generation = t.generation + 1 ∧
      ((∃ destination closed, c.op = .touch k destination closed ∧
          session'.allowedAddresses = insert destination.ip (t.touched k).1 ∧
          session'.allowedEndpoints = insert destination (t.touched k).2) ∨
        (∃ remote session, c.op = .allowResponse k remote ∧ t.sessions.lookup k = some session ∧
          c.now - session.lastUsed < t.idleTimeout ∧ session'.allowedAddresses = session.allowedAddresses ∧
          session'.allowedEndpoints = session.allowedEndpoints))) := by
  obtain ⟨now, op⟩ := c
  cases op with
  | touch key destination closed =>
    obtain ⟨session, hsessions, htime, hgeneration, haddresses, hendpoints⟩ :=
      touchAndSender_sessions t now key closed destination
    have hlookup : ((t.room now key).sessions.insert key session).lookup k = some session' := hsessions ▸ h
    obtain ⟨rfl, rfl⟩ | ⟨hk, hlookup⟩ := Map.lookup_insert_cases hlookup
    · exact .inr ⟨rfl, htime, hgeneration, .inl ⟨destination, closed, rfl, haddresses, hendpoints⟩⟩
    · exact .inl ⟨fun hused => hk (Option.some.inj hused).symm, session', lookup_of_room hlookup, rfl⟩
  | insertSender key sender | clearSender key => exact .inl ⟨nofun, lookup_setSender h⟩
  | allowResponse key remote =>
    have hlookup : (t.allowResponse now key remote).2.sessions.lookup k = some session' := h
    obtain ⟨heq, -⟩ | ⟨session, hsession, hlive, -, heq⟩ := t.allowResponse_cases now key remote
    · rw [heq] at hlookup
      exact .inl ⟨by simp [used, heq], session', (lookup_expire.mp hlookup).1, rfl⟩
    · rw [heq] at hlookup
      obtain ⟨rfl, rfl⟩ | ⟨hk, hlookup⟩ := Map.lookup_insert_cases hlookup
      · simp_all [used]
      · exact .inl ⟨by simpa [used, heq] using Ne.symm hk, session', (lookup_expire.mp hlookup).1, rfl⟩
  | expire => exact .inl ⟨nofun, session', (lookup_expire.mp h).1, rfl⟩

theorem step_generation : (t.step c).generation = if (t.used c).isSome then t.generation + 1 else t.generation := by
  obtain ⟨now, op⟩ := c
  cases op with
  | touch key destination closed => exact touchAndSender_generation closed destination
  | insertSender key sender | clearSender key => exact setSender_generation
  | allowResponse key remote =>
    show (t.allowResponse now key remote).2.generation = _
    obtain ⟨heq, -⟩ | ⟨_, -, -, -, heq⟩ := t.allowResponse_cases now key remote <;> simp [used, heq, expire]
  | expire => rfl

def config (t : UdpNatTable Sender) : UdpNatBehavior × Nat × Nat := (t.filtering, t.maxSessions, t.idleTimeout)

theorem step_config : (t.step c).config = t.config := by
  have hset : ∀ key sender, (t.setSender key sender).config = t.config := by
    intro key sender
    unfold setSender
    split <;> rfl
  obtain ⟨now, op⟩ := c
  cases op with
  | touch key destination closed =>
    show (t.room now key).config = t.config
    unfold room reclaimIfFull evictLru
    split_ifs <;> [rfl; rfl; (split <;> rfl); rfl]
  | insertSender key sender => exact hset key (some sender)
  | clearSender key => exact hset key none
  | allowResponse key remote =>
    show (t.allowResponse now key remote).2.config = t.config
    obtain ⟨heq, -⟩ | ⟨_, -, -, -, heq⟩ := t.allowResponse_cases now key remote <;> rw [heq] <;> rfl
  | expire => rfl

/-! ## Capacity -/

theorem size_expire_le : Map.size (t.expire now).sessions ≤ Map.size t.sessions :=
  Map.size_le_of_lookup fun _ _ h => (lookup_expire.mp h).1

theorem size_evictLru (h : 0 < Map.size t.sessions) : Map.size t.evictLru.sessions + 1 = Map.size t.sessions := by
  unfold evictLru
  cases hmin : t.sessions.entries.argmin (·.2.generation.toNat) with
  | none =>
    have hnil := argmin_eq_none.mp hmin
    simp [Map.size, AList.keys, List.keys, hnil] at h
  | some entry =>
    have hmem := argmin_mem hmin
    exact Map.size_erase_of_mem (Map.mem_of_lookup (AList.mem_lookup_iff.mpr hmem))

theorem size_reclaimIfFull (hmax : 1 ≤ t.maxSessions) (hsize : Map.size t.sessions ≤ t.maxSessions) :
    Map.size (t.reclaimIfFull now).sessions < t.maxSessions := by
  have hexpire : Map.size (t.expire now).sessions ≤ Map.size t.sessions := size_expire_le
  grind [reclaimIfFull, size_evictLru]

theorem step_size (hmax : 1 ≤ t.maxSessions) (hsize : Map.size t.sessions ≤ t.maxSessions) :
    Map.size (t.step c).sessions ≤ t.maxSessions := by
  have hset : ∀ key sender, Map.size (t.setSender key sender).sessions ≤ t.maxSessions := by
    intro key sender
    unfold setSender
    split
    · next session hlookup => exact (Map.size_insert_of_mem _ (Map.mem_of_lookup hlookup)).trans_le hsize
    · exact hsize
  have hexpire : ∀ now, Map.size (t.expire now).sessions ≤ t.maxSessions := fun now => size_expire_le.trans hsize
  obtain ⟨now, op⟩ := c
  cases op with
  | touch key destination closed =>
    obtain ⟨session, hsessions, -⟩ := touchAndSender_sessions t now key closed destination
    have hstep :
        (t.step ⟨now, .touch key destination closed⟩).sessions = (t.room now key).sessions.insert key session :=
      hsessions
    rw [hstep, room]
    split
    · next hmem => exact (Map.size_insert_of_mem _ hmem).trans_le hsize
    · exact (Map.size_insert_le _).trans (size_reclaimIfFull hmax hsize)
  | insertSender key sender => exact hset key (some sender)
  | clearSender key => exact hset key none
  | allowResponse key remote =>
    show Map.size (t.allowResponse now key remote).2.sessions ≤ _
    obtain ⟨heq, -⟩ | ⟨session, hlookup, hlive, -, heq⟩ := t.allowResponse_cases now key remote
    · rw [heq]
      exact hexpire now
    · have hmem : key ∈ (t.expire now).sessions := Map.mem_of_lookup (lookup_expire.mpr ⟨hlookup, hlive⟩)
      rw [heq, Map.size_insert_of_mem _ hmem]
      exact hexpire now
  | expire => exact hexpire now

end UdpNatTable

/-! ## Uses and touches of a history -/

section
variable {us : List (UdpMappingKey × Nat)} {key : UdpMappingKey} {i j now time : Nat}

theorem isLastUse_concat_self : IsLastUse (us ++ [(k, now)]) k us.length now := by
  refine ⟨by simp, fun j use hj huse => ?_⟩
  have hlt := Numbered.lt_length huse
  rw [length_append, length_singleton] at hlt
  omega

theorem IsLastUse.concat (h : IsLastUse us k i time) (hne : key ≠ k) : IsLastUse (us ++ [(key, now)]) k i time := by
  refine ⟨Numbered.get_concat h.1, fun j use hj huse => ?_⟩
  obtain hold | ⟨-, rfl⟩ := Numbered.get_concat_cases huse
  · exact h.2 j use hj hold
  · exact hne

theorem IsLastUse.unique {time' : Nat} (h : IsLastUse us k i time) (h' : IsLastUse us k j time') :
    i = j ∧ time = time' := by
  obtain hlt | rfl | hlt := Nat.lt_trichotomy i j
  · exact absurd rfl (h.2 j _ hlt h'.1)
  · exact ⟨rfl, by simpa [h.1] using h'.1⟩
  · exact absurd rfl (h'.2 i _ hlt h.1)

end

namespace UdpNatTable
variable {calls : List (NatCall Sender)} {c : NatCall Sender}

theorem after_concat : t.after (calls ++ [c]) = (t.after calls).step c := by
  simp [after]

theorem uses_concat : t.uses (calls ++ [c]) = t.uses calls ++ ((t.after calls).used c).toList.map (·, c.now) := by
  induction calls generalizing t with
  | nil => simp [uses, after]
  | cons d calls ih =>
    rw [cons_append, uses, uses, ih, append_assoc]
    rfl

theorem touchedSince_concat {destination : SocketAddr} : TouchedSince t (calls ++ [c]) k destination ↔
    k ∈ (t.after (calls ++ [c])).sessions ∧
      ((∃ closed, c.op = .touch k destination closed) ∨ TouchedSince t calls k destination) := by
  constructor
  · rintro ⟨before, c', after, closed, heq, hop, hpresent⟩
    refine ⟨?_, ?_⟩
    · rw [heq]
      exact hpresent after [] (append_nil after).symm
    · rcases eq_nil_or_concat' after with rfl | ⟨front, last, rfl⟩
      · simp_all
      · rw [← cons_append, ← append_assoc] at heq
        obtain ⟨rfl, -⟩ := append_inj' heq rfl
        refine .inr ⟨before, c', front, closed, rfl, hop, ?_⟩
        rintro front' back rfl
        exact hpresent front' (back ++ [last]) (by simp)
  · rintro ⟨hmem, ⟨closed, hop⟩ | ⟨before, c', after, closed, rfl, hop, hpresent⟩⟩
    · refine ⟨calls, c, [], closed, rfl, hop, ?_⟩
      simp_all
    · refine ⟨before, c', after ++ [c], closed, by simp, hop, ?_⟩
      intro front back heq
      rcases eq_nil_or_concat' back with rfl | ⟨back, last, rfl⟩
      · rw [append_nil] at heq
        subst heq
        simpa using hmem
      grind [append_assoc, append_inj']

/-! ## What the table stores is what the history says -/

structure Inv (t : UdpNatTable Sender) (calls : List (NatCall Sender)) : Prop where
  size : 1 ≤ t.maxSessions → Map.size (t.after calls).sessions ≤ t.maxSessions
  config : (t.after calls).filtering = t.filtering ∧ (t.after calls).maxSessions = t.maxSessions ∧
    (t.after calls).idleTimeout = t.idleTimeout
  generation : (t.after calls).generation.toNat = (t.uses calls).length % 2 ^ 64
  lastUse : ∀ k session, (t.after calls).sessions.lookup k = some session →
    ∃ i, IsLastUse (t.uses calls) k i session.lastUsed ∧ session.generation.toNat = (i + 1) % 2 ^ 64
  endpoints : ∀ k session, (t.after calls).sessions.lookup k = some session →
    ∀ destination, destination ∈ session.allowedEndpoints ↔ TouchedSince t calls k destination
  addresses : ∀ k session, (t.after calls).sessions.lookup k = some session →
    ∀ ip, ip ∈ session.allowedAddresses ↔ ∃ destination ∈ session.allowedEndpoints, destination.ip = ip

theorem inv_new (filtering : UdpNatBehavior) (maxSessions idleTimeout : Nat) :
    Inv (new filtering maxSessions idleTimeout : UdpNatTable Sender) [] where
  size _ := Nat.zero_le _
  config := ⟨rfl, rfl, rfl⟩
  generation := rfl
  lastUse _ _ h := by cases h
  endpoints _ _ h := by cases h
  addresses _ _ h := by cases h

theorem toNat_add_one (n : UInt64) : (n + 1).toNat = (n.toNat + 1) % 2 ^ 64 := by
  simp

theorem mem_touched_endpoints (h : Inv t calls) (destination : SocketAddr) :
    destination ∈ ((t.after calls).touched k).2 ↔ TouchedSince t calls k destination := by
  unfold touched
  cases hlookup : (t.after calls).sessions.lookup k with
  | some session => exact h.endpoints k session hlookup destination
  | none =>
    refine iff_of_false (Finset.notMem_empty _) ?_
    rintro ⟨before, c, after, closed, rfl, -, hpresent⟩
    exact AList.lookup_eq_none.mp hlookup (hpresent after [] (append_nil after).symm)

theorem mem_touched_addresses (h : Inv t calls) (ip : IpAddr) :
    ip ∈ ((t.after calls).touched k).1 ↔ ∃ destination ∈ ((t.after calls).touched k).2, destination.ip = ip := by
  unfold touched
  cases hlookup : (t.after calls).sessions.lookup k with
  | some session => exact h.addresses k session hlookup ip
  | none => simp

theorem uses_concat_of_used (hused : (t.after calls).used c = some k) :
    t.uses (calls ++ [c]) = t.uses calls ++ [(k, c.now)] := by
  rw [uses_concat, hused]
  rfl

section
variable (h : Inv t calls)
include h

theorem Inv.lastUse_step {session : UdpNatSession Sender}
    (hlookup : (t.after (calls ++ [c])).sessions.lookup k = some session) :
    ∃ i, IsLastUse (t.uses (calls ++ [c])) k i session.lastUsed ∧ session.generation.toNat = (i + 1) % 2 ^ 64 := by
  rw [after_concat] at hlookup
  obtain ⟨hused, old, hold, hsame⟩ | ⟨hused, htime, hgeneration, -⟩ := step_session hlookup
  · obtain ⟨i, hlast, hnumber⟩ := h.lastUse k old hold
    refine ⟨i, ?_, by rw [hsame]; exact hnumber⟩
    rw [hsame]
    cases hother : (t.after calls).used c with
    | none =>
      rw [uses_concat, hother]
      simpa using hlast
    | some key =>
      rw [uses_concat_of_used hother]
      exact hlast.concat fun heq => hused (heq ▸ hother)
  · refine ⟨(t.uses calls).length, ?_, ?_⟩
    · rw [uses_concat_of_used hused, htime]
      exact isLastUse_concat_self
    · rw [hgeneration, toNat_add_one, h.generation, Nat.mod_add_mod]

theorem Inv.endpoints_step {session : UdpNatSession Sender}
    (hlookup : (t.after (calls ++ [c])).sessions.lookup k = some session) (destination : SocketAddr) :
    destination ∈ session.allowedEndpoints ↔ TouchedSince t (calls ++ [c]) k destination := by
  rw [touchedSince_concat, and_iff_right (Map.mem_of_lookup hlookup)]
  rw [after_concat] at hlookup
  obtain ⟨hused, old, hold, hsame⟩ | ⟨-, -, -, htouch | hresponse⟩ := step_session hlookup
  · have hnot : ¬∃ closed, c.op = .touch k destination closed := by
      rintro ⟨closed, hop⟩
      exact hused (by rw [used, hop])
    rw [or_iff_right hnot, hsame]
    exact h.endpoints k old hold destination
  · obtain ⟨d, closed, hop, -, hendpoints⟩ := htouch
    rw [hendpoints, Finset.mem_insert, mem_touched_endpoints h, hop]
    simp [eq_comm]
  · obtain ⟨remote, old, hop, hold, -, -, hendpoints⟩ := hresponse
    rw [hendpoints, h.endpoints k old hold, hop]
    simp

theorem Inv.addresses_step {session : UdpNatSession Sender}
    (hlookup : (t.after (calls ++ [c])).sessions.lookup k = some session) (ip : IpAddr) :
    ip ∈ session.allowedAddresses ↔ ∃ destination ∈ session.allowedEndpoints, destination.ip = ip := by
  rw [after_concat] at hlookup
  obtain ⟨-, old, hold, hsame⟩ | ⟨-, -, -, htouch | hresponse⟩ := step_session hlookup
  · rw [hsame]
    exact h.addresses k old hold ip
  · obtain ⟨d, closed, -, haddresses, hendpoints⟩ := htouch
    rw [haddresses, hendpoints, Finset.mem_insert, mem_touched_addresses h]
    simp [eq_comm]
  · obtain ⟨remote, old, -, hold, -, haddresses, hendpoints⟩ := hresponse
    rw [haddresses, hendpoints]
    exact h.addresses k old hold ip

theorem Inv.step : Inv t (calls ++ [c]) where
  size hmax := by
    have hsize := step_size (c := c) (h.config.2.1.symm ▸ hmax) (h.config.2.1.symm ▸ h.size hmax)
    rwa [← after_concat, h.config.2.1] at hsize
  config := by
    have hstep := step_config (t := t.after calls) (c := c)
    simp only [UdpNatTable.config, Prod.mk.injEq] at hstep
    rw [after_concat, hstep.1, hstep.2.1, hstep.2.2]
    exact h.config
  generation := by
    rw [after_concat, step_generation, uses_concat, length_append]
    cases (t.after calls).used c with
    | none => simpa using h.generation
    | some key =>
      rw [if_pos Option.isSome_some, toNat_add_one, h.generation, Nat.mod_add_mod]
      rfl
  lastUse _ _ := h.lastUse_step
  endpoints _ _ := h.endpoints_step
  addresses _ _ := h.addresses_step

end

theorem inv_after (filtering : UdpNatBehavior) (maxSessions idleTimeout : Nat)
    (calls : List (NatCall Sender)) : Inv (new filtering maxSessions idleTimeout) calls := by
  induction calls using List.reverseRecOn with
  | nil => exact inv_new filtering maxSessions idleTimeout
  | append_singleton calls c ih => exact ih.step

/-! ## A touch on a full table -/

section
variable {key : UdpMappingKey} {now : Nat}

theorem mem_touchAndSender (closed : Sender → Bool) (destination : SocketAddr) :
    k ∈ (t.touchAndSender closed now key destination).2.sessions ↔ k = key ∨ k ∈ (t.room now key).sessions := by
  obtain ⟨session, hsessions, -⟩ := touchAndSender_sessions t now key closed destination
  rw [hsessions, AList.mem_insert]

theorem mem_expire : k ∈ (t.expire now).sessions ↔
    ∃ session, t.sessions.lookup k = some session ∧ now - session.lastUsed < t.idleTimeout := by
  rw [← AList.lookup_isSome, Option.isSome_iff_exists]
  simp only [lookup_expire]

theorem lookup_of_mem (h : k ∈ t.sessions) : ∃ session, t.sessions.lookup k = some session :=
  Option.isSome_iff_exists.mp (AList.lookup_isSome.mpr h)

/-- A touch of a new key on a full table with an idle session removes the idle ones. -/
theorem room_of_idle (hnew : key ∉ t.sessions) (hfull : Map.size t.sessions = t.maxSessions)
    {idle : UdpNatSession Sender} (hlookup : t.sessions.lookup k = some idle)
    (hidle : t.idleTimeout ≤ now - idle.lastUsed) : t.room now key = t.expire now := by
  -- the map without the idle session holds all that is left
  have hless : Map.size (t.expire now).sessions < Map.size t.sessions := by
    have herase := Map.size_erase_of_mem (Map.mem_of_lookup hlookup)
    have hle : Map.size (t.expire now).sessions ≤ Map.size (t.sessions.erase k) := by
      refine Map.size_le_of_lookup fun k' session hsession => ?_
      obtain ⟨hin, hlive⟩ := lookup_expire.mp hsession
      have hk : k' ≠ k := by
        rintro rfl
        obtain rfl := Option.some.inj (hlookup.symm.trans hin)
        omega
      rwa [AList.lookup_erase_ne hk]
    omega
  rw [room, if_neg hnew, reclaimIfFull, if_neg (by omega), if_neg (by omega)]

/-- With no idle session it removes one whose generation is the least. -/
theorem room_of_live (hnew : key ∉ t.sessions) (hmax : 1 ≤ t.maxSessions) (hfull : Map.size t.sessions = t.maxSessions)
    (hlive : ∀ k session, t.sessions.lookup k = some session → now - session.lastUsed < t.idleTimeout) :
    ∃ victim session, t.sessions.lookup victim = some session ∧
      (∀ k session', t.sessions.lookup k = some session' → session.generation.toNat ≤ session'.generation.toNat) ∧
      ∀ k, k ∈ (t.room now key).sessions ↔ k ∈ t.sessions ∧ k ≠ victim := by
  have hsame : ∀ k session, t.sessions.lookup k = some session → (t.expire now).sessions.lookup k = some session :=
    fun k session h => lookup_expire.mpr ⟨h, hlive k session h⟩
  have hsize : Map.size (t.expire now).sessions = Map.size t.sessions :=
    Nat.le_antisymm size_expire_le (Map.size_le_of_lookup hsame)
  have hroom : t.room now key = (t.expire now).evictLru := by
    rw [room, if_neg hnew, reclaimIfFull, if_neg (by omega), if_pos (by omega)]
  rw [hroom, evictLru]
  cases hmin : (t.expire now).sessions.entries.argmin (·.2.generation.toNat) with
  | none =>
    have hnil := argmin_eq_none.mp hmin
    have hempty : Map.size (t.expire now).sessions = 0 := by simp [Map.size, AList.keys, List.keys, hnil]
    omega
  | some entry =>
    have hentry : (t.expire now).sessions.lookup entry.1 = some entry.2 :=
      AList.mem_lookup_iff.mpr (argmin_mem hmin)
    refine ⟨entry.1, entry.2, (lookup_expire.mp hentry).1, ?_, ?_⟩
    · intro k session' h
      have hmem : (⟨k, session'⟩ : Sigma fun _ : UdpMappingKey => UdpNatSession Sender) ∈
          (t.expire now).sessions.entries :=
        AList.mem_lookup_iff.mp (hsame k session' h)
      have hle := le_of_mem_argmin hmem hmin
      exact hle
    grind [AList.mem_erase, mem_expire, Map.mem_of_lookup, lookup_of_mem]

end

end UdpNatTable

/-! ## The table over a history -/

/-- The last use of the key is at least the idle timeout ago. -/
def IdleAt (t : UdpNatTable Sender) (calls : List (NatCall Sender)) (now : Nat) (key : UdpMappingKey) : Prop :=
  ∃ i time, IsLastUse (t.uses calls) key i time ∧ t.idleTimeout ≤ now - time

/-- The last use of `key` is older than that of `key'`. -/
def UsedBefore (uses : List (UdpMappingKey × Nat)) (key key' : UdpMappingKey) : Prop :=
  ∃ i j time time', IsLastUse uses key i time ∧ IsLastUse uses key' j time' ∧ i < j

/-- What the filter asks of a response, in terms of the destinations that were touched. -/
def Permitted (t : UdpNatTable Sender) (calls : List (NatCall Sender)) (key : UdpMappingKey)
    (remote : SocketAddr) : Prop :=
  match t.filtering with
  | .endpointIndependent => True
  | .addressDependent => ∃ destination, TouchedSince t calls key destination ∧ destination.ip = remote.ip
  | .addressAndPortDependent => TouchedSince t calls key remote

/-- The counter of uses did not wrap between the last uses of the sessions in the table. -/
def Unwrapped (t : UdpNatTable Sender) (calls : List (NatCall Sender)) : Prop :=
  ∀ k ∈ (t.after calls).sessions, ∀ k' ∈ (t.after calls).sessions, ∀ i j time time',
    IsLastUse (t.uses calls) k i time → IsLastUse (t.uses calls) k' j time' → (i + 1) / 2 ^ 64 = (j + 1) / 2 ^ 64

namespace UdpNatTable
variable {calls : List (NatCall Sender)} {key : UdpMappingKey} {now : Nat}
  {session : UdpNatSession Sender}

variable (h : Inv t calls)
include h

theorem Inv.idleAt_iff (hlookup : (t.after calls).sessions.lookup k = some session) :
    IdleAt t calls now k ↔ t.idleTimeout ≤ now - session.lastUsed := by
  obtain ⟨i, hlast, -⟩ := h.lastUse k session hlookup
  constructor
  · rintro ⟨j, time, hlast', hidle⟩
    rwa [(hlast.unique hlast').2]
  · exact fun hidle => ⟨i, session.lastUsed, hlast, hidle⟩

theorem Inv.allows_iff (hlookup : (t.after calls).sessions.lookup k = some session)
    (remote : SocketAddr) : allows t.filtering session remote = true ↔ Permitted t calls k remote := by
  unfold allows Permitted
  cases t.filtering with
  | endpointIndependent => simp
  | addressDependent =>
    rw [decide_eq_true_iff, h.addresses k session hlookup]
    simp only [h.endpoints k session hlookup]
  | addressAndPortDependent =>
    rw [decide_eq_true_iff, h.endpoints k session hlookup]

theorem Inv.allowResponse_iff (remote : SocketAddr) :
    ((t.after calls).allowResponse now key remote).1 = true ↔
      key ∈ (t.after calls).sessions ∧ ¬IdleAt t calls now key ∧ Permitted t calls key remote := by
  rw [allowResponse_true, h.config.1, h.config.2.2]
  constructor
  · rintro ⟨session, hlookup, hlive, hallows⟩
    refine ⟨Map.mem_of_lookup hlookup, ?_, (h.allows_iff hlookup remote).mp hallows⟩
    rw [h.idleAt_iff hlookup]
    exact Nat.not_le.mpr hlive
  · rintro ⟨hmem, hlive, hpermitted⟩
    obtain ⟨session, hlookup⟩ := lookup_of_mem hmem
    rw [h.idleAt_iff hlookup] at hlive
    exact ⟨session, hlookup, Nat.not_le.mp hlive, (h.allows_iff hlookup remote).mpr hpermitted⟩

/-- The generations of two sessions are in the order of their last uses. -/
theorem Inv.usedBefore (hunwrapped : Unwrapped t calls) {session' : UdpNatSession Sender}
    (hk : (t.after calls).sessions.lookup k = some session) (hkey : (t.after calls).sessions.lookup key = some session')
    (hle : session.generation.toNat ≤ session'.generation.toNat) (hne : key ≠ k) : UsedBefore (t.uses calls) k key := by
  obtain ⟨i, hi, hgeneration⟩ := h.lastUse k session hk
  obtain ⟨j, hj, hgeneration'⟩ := h.lastUse key session' hkey
  refine ⟨i, j, _, _, hi, hj, ?_⟩
  have hblock := hunwrapped k (Map.mem_of_lookup hk) key (Map.mem_of_lookup hkey) i j _ _ hi hj
  have hij : i ≠ j := by
    rintro rfl
    exact hne (Prod.mk.inj (Option.some.inj (hj.1.symm.trans hi.1))).1
  omega

end UdpNatTable

open UdpNatTable

/-- Capacity, reclamation and filtering, for every history. -/
theorem nat_table_history (filtering : UdpNatBehavior) (maxSessions idleTimeout : Nat) (hmax : 1 ≤ maxSessions)
    (calls : List (NatCall Sender)) :
    let table : UdpNatTable Sender := new filtering maxSessions idleTimeout
    let t := table.after calls
    Map.size t.sessions ≤ maxSessions ∧
    (∀ closed now key destination, key ∉ t.sessions → Map.size t.sessions = maxSessions →
      let t' := (t.touchAndSender closed now key destination).2
      ((∃ k ∈ t.sessions, IdleAt table calls now k) → ∀ k ∈ t.sessions, k ∉ t'.sessions ↔ IdleAt table calls now k) ∧
      ((¬∃ k ∈ t.sessions, IdleAt table calls now k) → Unwrapped table calls → ∃ oldest ∈ t.sessions,
        (∀ k ∈ t.sessions, k ≠ oldest → UsedBefore (table.uses calls) oldest k) ∧
          ∀ k ∈ t.sessions, k ∉ t'.sessions ↔ k = oldest)) ∧
    ∀ now key remote, (t.allowResponse now key remote).1 = true ↔
      key ∈ t.sessions ∧ ¬IdleAt table calls now key ∧ Permitted table calls key remote := by
  intro table t
  have hinv : Inv table calls := inv_after filtering maxSessions idleTimeout calls
  have hsessions : t.maxSessions = maxSessions := hinv.config.2.1
  have htimeout : t.idleTimeout = table.idleTimeout := hinv.config.2.2
  refine ⟨hinv.size hmax, ?_, fun now key remote => hinv.allowResponse_iff remote⟩
  intro closed now key destination hnew hfull t'
  have hgone : ∀ k ∈ t.sessions, k ∉ t'.sessions ↔ k ∉ (t.room now key).sessions := by
    intro k hk
    have hne : k ≠ key := fun heq => hnew (heq ▸ hk)
    rw [mem_touchAndSender, not_or]
    exact and_iff_right hne
  refine ⟨?_, ?_⟩
  · rintro ⟨k₀, hk₀, hidle⟩ k hk
    obtain ⟨idle, hlookup⟩ := lookup_of_mem hk₀
    have hroom := room_of_idle hnew (hfull.trans hsessions.symm) hlookup (htimeout ▸ (hinv.idleAt_iff hlookup).mp hidle)
    obtain ⟨session, hsession⟩ := lookup_of_mem hk
    rw [hgone k hk, hroom, mem_expire, hinv.idleAt_iff hsession, htimeout, hsession]
    simp
  · intro hnone hunwrapped
    have hlive : ∀ k session, t.sessions.lookup k = some session → now - session.lastUsed < t.idleTimeout := by
      intro k session hlookup
      rw [htimeout]
      refine Nat.not_le.mp fun hidle => hnone ⟨k, Map.mem_of_lookup hlookup, ?_⟩
      exact (hinv.idleAt_iff hlookup).mpr hidle
    obtain ⟨victim, session, hvictim, hleast, hroom⟩ :=
      room_of_live hnew (hsessions.symm ▸ hmax) (hfull.trans hsessions.symm) hlive
    refine ⟨victim, Map.mem_of_lookup hvictim, ?_, ?_⟩
    · intro k hk hne
      obtain ⟨session', hsession'⟩ := lookup_of_mem hk
      exact hinv.usedBefore hunwrapped hvictim hsession' (hleast k session' hsession') hne
    simp_all

/-! A table for two sessions, the first of which is used again: a third key takes the place of the second. -/

def host (n : UInt8) : SocketAddr := ⟨.v4 #v[192, 0, 2, n], 53⟩

def touchAt (now : Nat) (n : UInt8) : NatCall Unit := ⟨now, .touch (.endpoint (host n)) (host n) fun _ => false⟩

def threeTouches : List (NatCall Unit) := [touchAt 0 1, touchAt 5 2, touchAt 7 1]

theorem nat_table_history_two_sessions :
    let table : UdpNatTable Unit := new .addressAndPortDependent 2 300
    let t := table.after threeTouches
    .endpoint (host 2) ∉ (t.touchAndSender (fun _ => false) 9 (.endpoint (host 3)) (host 3)).2.sessions ∧
    .endpoint (host 1) ∈ (t.touchAndSender (fun _ => false) 305 (.endpoint (host 3)) (host 3)).2.sessions ∧
    (t.allowResponse 9 (.endpoint (host 1)) (host 1)).1 = true := by
  intro table t
  obtain ⟨-, htouch, hresponse⟩ := nat_table_history .addressAndPortDependent 2 300 (by decide) threeTouches
  have hfirst : .endpoint (host 1) ∈ t.sessions := by decide
  have hsecond : .endpoint (host 2) ∈ t.sessions := by decide
  have huses :
      table.uses threeTouches = [(.endpoint (host 1), 0), (.endpoint (host 2), 5), (.endpoint (host 1), 7)] := rfl
  have hother : UdpMappingKey.endpoint (host 1) ≠ .endpoint (host 2) := by decide
  have hlast : ∀ key i time, IsLastUse (table.uses threeTouches) key i time →
      key = .endpoint (host 1) ∧ i = 2 ∧ time = 7 ∨ key = .endpoint (host 2) ∧ i = 1 ∧ time = 5 := by
    rintro key i time ⟨hget, hafter⟩
    rw [huses] at hget hafter
    have hagain := hafter 2 (.endpoint (host 1), 7)
    match i with
    | 0 | 1 | 2 | i + 3 => simp_all
  have hlive : ∀ now, now < 307 → ¬IdleAt table threeTouches now (.endpoint (host 1)) := by
    rintro now hnow ⟨i, time, hi, hidle⟩
    have hidle : 300 ≤ now - time := hidle
    grind [hlast _ i time hi]
  refine ⟨?_, ?_, (hresponse 9 (.endpoint (host 1)) (host 1)).mpr ⟨hfirst, hlive 9 (by decide), ?_⟩⟩
  · -- at 9 no session is idle, and the second one is the oldest
    have hnone : ¬∃ k ∈ t.sessions, IdleAt table threeTouches 9 k := by
      rintro ⟨k, -, i, time, -, hidle⟩
      exact absurd (hidle.trans (Nat.sub_le 9 time)) (by decide)
    have hunwrapped : Unwrapped table threeTouches := by
      intro k _ k' _ i j time time' hi hj
      obtain ⟨-, rfl, -⟩ | ⟨-, rfl, -⟩ := hlast k i time hi <;>
        obtain ⟨-, rfl, -⟩ | ⟨-, rfl, -⟩ := hlast k' j time' hj <;> rfl
    obtain ⟨oldest, -, hbefore, hgone⟩ :=
      (htouch (fun _ => false) 9 (.endpoint (host 3)) (host 3) (by decide) rfl).2 hnone hunwrapped
    have hoeq : .endpoint (host 2) = oldest := by
      by_contra hne
      obtain ⟨i, j, time, time', hi, hj, hlt⟩ := hbefore _ hsecond hne
      grind [hlast oldest i time hi, hlast _ j time' hj]
    rwa [hgone _ hsecond]
  · have hidle : IdleAt table threeTouches 305 (.endpoint (host 2)) := by
      refine ⟨1, 5, ⟨rfl, fun j use hj huse => ?_⟩, by decide⟩
      grind
    have hgone :=
      (htouch (fun _ => false) 305 (.endpoint (host 3)) (host 3) (by decide) rfl).1 ⟨_, hsecond, hidle⟩ _ hfirst
    rw [← not_not (a := _ ∈ _), hgone]
    exact hlive 305 (by decide)
  · refine ⟨[touchAt 0 1, touchAt 5 2], touchAt 7 1, [], fun _ => false, rfl, rfl, fun front back hfront => ?_⟩
    obtain ⟨rfl, -⟩ := append_eq_nil_iff.mp hfront.symm
    decide

/-! The counter wraps: with `2^64` uses, the generation of the key that was used last is 0. -/

section
variable {n : UInt8}

theorem step_touchAt_mem {t : UdpNatTable Unit} (hmem : .endpoint (host n) ∈ t.sessions) :
    k ∈ (t.step (touchAt 0 n)).sessions ↔ k ∈ t.sessions := by
  refine (mem_touchAndSender _ _).trans ?_
  rw [room, if_pos hmem]
  exact ⟨fun h => h.elim (fun heq => heq ▸ hmem) id, .inr⟩

theorem after_replicate_mem (m : Nat) : ∀ {t : UdpNatTable Unit}, .endpoint (host n) ∈ t.sessions →
    (k ∈ (t.after (List.replicate m (touchAt 0 n))).sessions ↔ k ∈ t.sessions) := by
  induction m with
  | zero => exact fun _ => Iff.rfl
  | succ m ih => exact fun hmem => (ih ((step_touchAt_mem hmem).mpr hmem)).trans (step_touchAt_mem hmem)

theorem uses_replicate (m : Nat) : ∀ t : UdpNatTable Unit,
    t.uses (List.replicate m (touchAt 0 n)) = List.replicate m (.endpoint (host n), 0) := by
  induction m with
  | zero => exact fun _ => rfl
  | succ m ih =>
    intro t
    rw [replicate_succ, replicate_succ, uses, ih]
    rfl

end

def manyTouches (m : Nat) : List (NatCall Unit) := touchAt 0 1 :: touchAt 0 2 :: List.replicate m (touchAt 0 2)

def pairTable : UdpNatTable Unit := new .endpointIndependent 2 1

theorem uses_manyTouches (m : Nat) :
    pairTable.uses (manyTouches m) = (.endpoint (host 1), 0) :: List.replicate (m + 1) (.endpoint (host 2), 0) := by
  rw [manyTouches, ← replicate_succ, uses, uses_replicate]
  rfl

theorem lastUse_manyTouches (m : Nat) : IsLastUse (pairTable.uses (manyTouches m)) (.endpoint (host 1)) 0 0 ∧
    IsLastUse (pairTable.uses (manyTouches m)) (.endpoint (host 2)) (m + 1) 0 := by
  rw [uses_manyTouches]
  refine ⟨⟨rfl, ?_⟩, ⟨by simp, ?_⟩⟩
  · intro j use hj huse
    obtain ⟨j, rfl⟩ := Nat.exists_eq_succ_of_ne_zero (Nat.ne_of_gt hj)
    rw [eq_of_mem_replicate (mem_of_getElem? huse)]
    decide
  grind

theorem mem_manyTouches (m : Nat) :
    k ∈ (pairTable.after (manyTouches m)).sessions ↔ k = .endpoint (host 2) ∨ k = .endpoint (host 1) := by
  have hkeys :
      (pairTable.after [touchAt 0 1, touchAt 0 2]).sessions.keys = [.endpoint (host 2), .endpoint (host 1)] := rfl
  have hmem : ∀ k, k ∈ (pairTable.after [touchAt 0 1, touchAt 0 2]).sessions ↔
      k = .endpoint (host 2) ∨ k = .endpoint (host 1) := by
    intro k
    rw [AList.mem_keys, hkeys]
    simp
  exact (after_replicate_mem m ((hmem _).mpr (.inl rfl))).trans (hmem k)

theorem size_manyTouches (m : Nat) : Map.size (pairTable.after (manyTouches m)).sessions = 2 := by
  have hperm : (pairTable.after (manyTouches m)).sessions.keys.Perm [.endpoint (host 2), .endpoint (host 1)] := by
    refine (perm_ext_iff_of_nodup (AList.keys_nodup _) (by decide)).mpr fun k => ?_
    rw [← AList.mem_keys, mem_manyTouches]
    simp
  exact hperm.length_eq

theorem manyTouches_evicts {m : Nat} (hm : m + 2 = 2 ^ 64) :
    .endpoint (host 2) ∉ ((pairTable.after (manyTouches m)).touchAndSender (fun _ => false) 0
      (.endpoint (host 3)) (host 3)).2.sessions := by
  have hinv : Inv pairTable (manyTouches m) := inv_after .endpointIndependent 2 1 _
  have hfirst : .endpoint (host 1) ∈ (pairTable.after (manyTouches m)).sessions := (mem_manyTouches m).mpr (.inr rfl)
  have hsecond : .endpoint (host 2) ∈ (pairTable.after (manyTouches m)).sessions := (mem_manyTouches m).mpr (.inl rfl)
  have hnew : .endpoint (host 3) ∉ (pairTable.after (manyTouches m)).sessions := by
    rw [mem_manyTouches]
    decide
  obtain ⟨s₁, hs₁⟩ := lookup_of_mem hfirst
  obtain ⟨s₂, hs₂⟩ := lookup_of_mem hsecond
  obtain ⟨i, hi, hg₁⟩ := hinv.lastUse _ s₁ hs₁
  obtain ⟨j, hj, hg₂⟩ := hinv.lastUse _ s₂ hs₂
  -- the generations are 1 and 0
  rw [(hi.unique (lastUse_manyTouches m).1).1] at hg₁
  rw [(hj.unique (lastUse_manyTouches m).2).1, show m + 1 + 1 = 2 ^ 64 from hm] at hg₂
  have htimeout : (pairTable.after (manyTouches m)).idleTimeout = 1 := hinv.config.2.2
  have hlive : ∀ k session, (pairTable.after (manyTouches m)).sessions.lookup k = some session →
      0 - session.lastUsed < (pairTable.after (manyTouches m)).idleTimeout := by
    intro k session _
    rw [htimeout, Nat.zero_sub]
    exact Nat.zero_lt_one
  obtain ⟨victim, session, hvictim, hleast, hroom⟩ := room_of_live hnew
    (hinv.config.2.1 ▸ by decide) ((size_manyTouches m).trans hinv.config.2.1.symm) hlive
  have hvictim₂ : victim = .endpoint (host 2) := by
    rcases (mem_manyTouches m).mp (Map.mem_of_lookup hvictim) with rfl | rfl
    · rfl
    · grind
  subst hvictim₂
  rw [mem_touchAndSender, hroom]
  simp only [ne_eq, not_true_eq_false, and_false, or_false]
  decide

/-- A touch of the third host on the full table of the first two, none of them idle, removes another
    session than the one whose last use is the oldest. -/
def EvictsNewest (calls : List (NatCall Unit)) : Prop :=
  let t := pairTable.after calls
  let t' := (t.touchAndSender (fun _ => false) 0 (.endpoint (host 3)) (host 3)).2
  .endpoint (host 3) ∉ t.sessions ∧ Map.size t.sessions = 2 ∧ (¬∃ k ∈ t.sessions, IdleAt pairTable calls 0 k) ∧
    UsedBefore (pairTable.uses calls) (.endpoint (host 1)) (.endpoint (host 2)) ∧
    ¬∃ oldest ∈ t.sessions, (∀ k ∈ t.sessions, k ≠ oldest → UsedBefore (pairTable.uses calls) oldest k) ∧
      ∀ k ∈ t.sessions, k ∉ t'.sessions ↔ k = oldest

theorem evictsNewest_manyTouches {m : Nat} (hm : m + 2 = 2 ^ 64) : EvictsNewest (manyTouches m) := by
  obtain ⟨hfirst, hsecond⟩ := lastUse_manyTouches m
  have hgone := manyTouches_evicts hm
  refine ⟨?_, size_manyTouches m, ?_, ⟨0, m + 1, 0, 0, hfirst, hsecond, Nat.succ_pos m⟩, ?_⟩
  · rw [mem_manyTouches]
    decide
  · rintro ⟨k, -, i, time, -, hidle⟩
    rw [Nat.zero_sub] at hidle
    exact absurd hidle (by decide)
  · rintro ⟨oldest, -, hbefore, hremoved⟩
    obtain rfl := (hremoved _ ((mem_manyTouches m).mpr (.inl rfl))).mp hgone
    obtain ⟨i, j, _, _, hi, hj, hlt⟩ := hbefore (.endpoint (host 1)) ((mem_manyTouches m).mpr (.inr rfl)) (by decide)
    rw [(hi.unique hsecond).1, (hj.unique hfirst).1] at hlt
    exact absurd hlt (Nat.not_lt_zero _)

/-- With `2^64` uses behind it, a full table without an idle session removes the key that was used
    last, and keeps the one whose only use was the first of all. -/
theorem wrapped_counter_evicts_newest : EvictsNewest (manyTouches (2 ^ 64 - 2)) :=
  evictsNewest_manyTouches (by decide)

/-! ## Idle mappings -/

def usesOf (t : UdpNatTable Sender) (key : UdpMappingKey) (calls : List (NatCall Sender)) : List Nat :=
  ((t.uses calls).filter (·.1 = key)).map Prod.snd

/-- The key was touched with `destination`, the mapping was never idle since, and `last` is its last use. -/
def ContactedSince (t : UdpNatTable Sender) (calls : List (NatCall Sender)) (key : UdpMappingKey)
    (destination : SocketAddr) (last : Nat) : Prop :=
  ∃ before c after closed, calls = before ++ c :: after ∧ c.op = .touch key destination closed ∧
    (c.now :: usesOf (t.after (before ++ [c])) key after).IsChain (fun a b => b - a < t.idleTimeout) ∧
    (c.now :: usesOf (t.after (before ++ [c])) key after).getLast? = some last

/-- A touch does not find an idle session under its key. -/
def TouchLive (t : UdpNatTable Sender) (c : NatCall Sender) : Prop :=
  ∀ key destination closed session, c.op = .touch key destination closed →
    t.sessions.lookup key = some session → c.now - session.lastUsed < t.idleTimeout

def natStep (t : UdpNatTable Sender) (c : NatCall Sender) : Option (UdpNatTable Sender) := some (t.step c)

section
variable {calls : List (NatCall Sender)} {c : NatCall Sender}
  {destination : SocketAddr} {last : Nat}

theorem usesOf_concat : usesOf t k (calls ++ [c]) =
    usesOf t k calls ++ if (t.after calls).used c = some k then [c.now] else [] := by
  rw [usesOf, uses_concat, filter_append, map_append, usesOf]
  grind [used]

theorem after_append (before after : List (NatCall Sender)) (c : NatCall Sender) :
    (t.after (before ++ [c])).after after = t.after (before ++ c :: after) := by
  simp [UdpNatTable.after]

theorem contactedSince_touch {closed : Sender → Bool} (hop : c.op = .touch k destination closed) :
    ContactedSince t (calls ++ [c]) k destination c.now :=
  ⟨calls, c, [], closed, rfl, hop, isChain_singleton _, rfl⟩

theorem ContactedSince.unused (h : ContactedSince t calls k destination last)
    (hused : (t.after calls).used c ≠ some k) :
    ContactedSince t (calls ++ [c]) k destination last := by
  obtain ⟨before, c', after, closed, rfl, hop, hchain, hlast⟩ := h
  refine ⟨before, c', after ++ [c], closed, by simp, hop, ?_⟩
  rw [usesOf_concat, after_append, if_neg hused, append_nil]
  exact ⟨hchain, hlast⟩

theorem ContactedSince.used (h : ContactedSince t calls k destination last) (hused : (t.after calls).used c = some k)
    (hlive : c.now - last < t.idleTimeout) : ContactedSince t (calls ++ [c]) k destination c.now := by
  obtain ⟨before, c', after, closed, rfl, hop, hchain, hlast⟩ := h
  refine ⟨before, c', after ++ [c], closed, by simp, hop, ?_⟩
  rw [usesOf_concat, after_append, if_pos hused, ← cons_append]
  grind [isChain_append, isChain_singleton, getLast?_concat]

/-- Every destination a session stores was contacted since the mapping was last idle. -/
def Recent (t : UdpNatTable Sender) (calls : List (NatCall Sender)) : Prop :=
  ∀ k session, (t.after calls).sessions.lookup k = some session →
    ∀ destination ∈ session.allowedEndpoints, ContactedSince t calls k destination session.lastUsed

theorem Recent.step (hinv : Inv t calls) (h : Recent t calls) (htouch : TouchLive (t.after calls) c) :
    Recent t (calls ++ [c]) := by
  intro k session hlookup destination hdestination
  rw [after_concat] at hlookup
  obtain ⟨hused, old, hold, hsame⟩ | ⟨hused, htime, -, ⟨d, closed, hop, -, hendpoints⟩ |
    ⟨remote, old, -, hold, hlive, -, hendpoints⟩⟩ := step_session hlookup
  · rw [hsame] at hdestination ⊢
    exact (h k old hold destination hdestination).unused hused
  · rw [htime]
    rw [hendpoints, Finset.mem_insert, touched] at hdestination
    obtain rfl | hbefore := hdestination
    · exact contactedSince_touch hop
    · cases hold : (t.after calls).sessions.lookup k with
      | none =>
        rw [hold] at hbefore
        exact absurd hbefore (Finset.notMem_empty _)
      | some old =>
        rw [hold] at hbefore
        have hlive := htouch k d closed old hop hold
        rw [hinv.config.2.2] at hlive
        exact (h k old hold destination hbefore).used hused hlive
  · rw [htime]
    rw [hendpoints] at hdestination
    rw [hinv.config.2.2] at hlive
    exact (h k old hold destination hdestination).used hused hlive

end

theorem run_natStep (t : UdpNatTable Sender) (calls : List (NatCall Sender)) :
    run natStep t calls = some (t.after calls) := by
  induction calls generalizing t with
  | nil => rfl
  | cons c calls ih => exact run_cons_eq_some.mpr ⟨t.step c, rfl, ih (t.step c)⟩

theorem recent_after (filtering : UdpNatBehavior) (maxSessions idleTimeout : Nat) (calls : List (NatCall Sender))
    (h : Along natStep TouchLive (new filtering maxSessions idleTimeout) calls) :
    Recent (new filtering maxSessions idleTimeout) calls := by
  induction calls using List.reverseRecOn with
  | nil => exact nofun
  | append_singleton calls c ih =>
    obtain ⟨halong, htouch⟩ := h.of_append (run_natStep _ calls)
    exact (ih halong).step (inv_after filtering maxSessions idleTimeout calls) htouch

/-- In a history in which no touch finds an idle session under its key, a touch of a key that was idle
    starts afresh, and a response passes an address filter only for a remote that was contacted since
    the mapping was last idle. -/
theorem remote_before_idle_refused (filtering : UdpNatBehavior) (maxSessions idleTimeout : Nat)
    (calls : List (NatCall Sender)) (hlive : Along natStep TouchLive (new filtering maxSessions idleTimeout) calls) :
    let table : UdpNatTable Sender := new filtering maxSessions idleTimeout
    (∀ before c after key destination closed, calls = before ++ c :: after → c.op = .touch key destination closed →
      IdleAt table before c.now key → ∀ session, (table.after (before ++ [c])).sessions.lookup key = some session →
        session.allowedAddresses = {destination.ip} ∧ session.allowedEndpoints = {destination}) ∧
    ∀ now key remote, filtering ≠ .endpointIndependent → ((table.after calls).allowResponse now key remote).1 = true →
      ∃ destination last, ContactedSince table calls key destination last ∧ now - last < idleTimeout ∧
        destination.ip = remote.ip ∧ (filtering = .addressAndPortDependent → destination = remote) := by
  intro table
  refine ⟨?_, ?_⟩
  · rintro before c after key destination closed rfl hop hidle session hlookup
    have hinv : Inv table before := inv_after filtering maxSessions idleTimeout before
    obtain ⟨-, htouch⟩ := hlive.of_append (run_natStep table before)
    -- the key has no session before the touch: it would be an idle one
    have hnone : (table.after before).sessions.lookup key = none := by
      cases hold : (table.after before).sessions.lookup key with
      | none => rfl
      | some old =>
        have hyoung := htouch key destination closed old hop hold
        rw [hinv.config.2.2] at hyoung
        exact absurd ((hinv.idleAt_iff hold).mp hidle) (Nat.not_le.mpr hyoung)
    rw [after_concat] at hlookup
    obtain ⟨hused, -⟩ | ⟨-, -, -, ⟨d, _, hop', haddresses, hendpoints⟩ | ⟨remote, old, hop', -⟩⟩ := step_session hlookup
    · exact absurd (by rw [used, hop]) hused
    · simp_all [touched]
    · cases hop.symm.trans hop'
  · intro now key remote hfiltering hallowed
    have hinv : Inv table calls := inv_after filtering maxSessions idleTimeout calls
    have hrecent : Recent table calls := recent_after filtering maxSessions idleTimeout calls hlive
    obtain ⟨session, hlookup, hyoung, hallows⟩ := allowResponse_true.mp hallowed
    rw [hinv.config.2.2] at hyoung
    rw [hinv.config.1] at hallows
    cases filtering with
    | endpointIndependent => exact absurd rfl hfiltering
    | addressDependent =>
      obtain ⟨destination, hmem, hip⟩ :=
        (hinv.addresses key session hlookup remote.ip).mp (decide_eq_true_iff.mp hallows)
      exact ⟨destination, session.lastUsed, hrecent key session hlookup destination hmem, hyoung, hip, nofun⟩
    | addressAndPortDependent =>
      have hmem := decide_eq_true_iff.mp hallows
      exact ⟨remote, session.lastUsed, hrecent key session hlookup remote hmem, hyoung, rfl, fun _ => rfl⟩

/-! One client that talks to a first host, is silent for the timeout, and then talks to a second. -/

def client : UdpMappingKey := .endpoint ⟨.v4 #v[172, 19, 0, 2], 53000⟩

def contact (now : Nat) (n : UInt8) : NatCall Unit := ⟨now, .touch client (host n) fun _ => false⟩

def filterTable : UdpNatTable Unit := new .addressAndPortDependent 4 300

/-- The idle session is still in the table when the client comes back: the first host gets through,
    though it was contacted before the idle period only. -/
theorem idle_mapping_revived :
    IdleAt filterTable [contact 0 1] 300 client ∧
    ((filterTable.after [contact 0 1, contact 300 2]).allowResponse 301 client (host 1)).1 = true ∧
    ¬∃ last, ContactedSince filterTable [contact 0 1, contact 300 2] client (host 1) last := by
  refine ⟨⟨0, 0, ⟨rfl, ?_⟩, by decide⟩, by decide, ?_⟩
  · intro j use hj huse
    have hlt := Numbered.lt_length huse
    exact absurd hlt (Nat.not_lt.mpr hj)
  · rintro ⟨last, before, c, after, closed, heq, hop, hchain, -⟩
    match before, heq with
    | [], heq =>
      obtain ⟨rfl, rfl⟩ := List.cons.inj heq
      revert hchain
      decide
    | [_], heq =>
      obtain ⟨-, hrest⟩ := List.cons.inj heq
      obtain ⟨rfl, -⟩ := List.cons.inj hrest
      have hhost : host 2 = host 1 := (NatOp.touch.inj hop).2.1
      exact absurd hhost (by decide)
    | _ :: _ :: before, heq => simp at heq

theorem remote_before_idle_refused_after_expire :
    Along natStep TouchLive filterTable [contact 0 1, ⟨300, .expire⟩, contact 300 2] ∧
    ∃ session, (filterTable.after [contact 0 1, ⟨300, .expire⟩, contact 300 2]).sessions.lookup client = some session ∧
      session.allowedEndpoints = {host 2} := by
  have hlive : Along natStep TouchLive filterTable [contact 0 1, ⟨300, .expire⟩, contact 300 2] := by
    refine ⟨?_, ?_⟩
    · rintro key destination closed session hop hlookup
      cases hlookup
    · rintro t ⟨⟩
      refine ⟨?_, ?_⟩
      · rintro key destination closed session hop
        cases hop
      · rintro t ⟨⟩
        refine ⟨?_, fun _ _ => trivial⟩
        rintro key destination closed session hop hlookup
        cases hlookup
  refine ⟨hlive, ?_⟩
  obtain ⟨session, hsession⟩ : ∃ session,
      (filterTable.after [contact 0 1, ⟨300, .expire⟩, contact 300 2]).sessions.lookup client = some session := ⟨_, rfl⟩
  have hidle : IdleAt filterTable [contact 0 1, ⟨300, .expire⟩] 300 client := by
    refine ⟨0, 0, ⟨rfl, ?_⟩, by decide⟩
    intro j use hj huse
    have hlt := Numbered.lt_length huse
    exact absurd hlt (Nat.not_lt.mpr hj)
  exact ⟨session, hsession, ((remote_before_idle_refused .addressAndPortDependent 4 300 _ hlive).1
    [contact 0 1, ⟨300, .expire⟩] (contact 300 2) [] client (host 2) (fun _ => false) rfl rfl hidle session hsession).2⟩

end Xhttp.Proxy
