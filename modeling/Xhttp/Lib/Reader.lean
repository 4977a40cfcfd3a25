import Xhttp.Lib.Bytes

/- Reads that can be given up half way. A future that reads a message from a stream
   waits wherever it needs bytes that have not arrived. It keeps the bytes it has
   taken; if it is dropped, they are gone. A `Reader` is what is left of such a
   future, `feed` is one poll of it, and `Reading` is a future that is waiting.

   1. `feed_append`: a poll continues where the last one stopped, so the chunks in
      which the bytes arrive do not matter.
   2. `toIo_apply`: polled with all the bytes at once it does what the `Io` action
      `toIo` does on a stream of these bytes.
   3. `Frames x fs bs`: read message by message, `bs` is exactly `fs`. -/
namespace Xhttp.Lib
open List

/-- What is left of a read: nothing, or `n` bytes to wait for and what follows. -/
inductive Reader (ε α : Type) where
  | done (result : Except ε α)
  | need (n : Nat) (next : Bytes → Reader ε α)

namespace Reader
variable {ε α β : Type}

def bind : Reader ε α → (α → Reader ε β) → Reader ε β
  | .done (.ok a), f => f a
  | .done (.error e), _ => .done (.error e)
  | .need n next, f => .need n fun bs => (next bs).bind f

instance : Monad (Reader ε) where
  pure a := .done (.ok a)
  bind := Reader.bind

def bail (e : ε) : Reader ε α := .done (.error e)

def bailIf (c : Prop) [Decidable c] (e : ε) : Reader ε Unit := if c then bail e else pure ()

def lift (r : Except ε α) : Reader ε α := .done r

def readExact (n : Nat) : Reader ε Bytes := .need n fun bs => .done (.ok bs)

def readU8 : Reader ε UInt8 := .need 1 fun bs => .done (.ok (bs.getD 0 0))

def readU16 : Reader ε UInt16 := .need 2 fun bs => .done (.ok (ofBeU16 (bs.getD 0 0) (bs.getD 1 0)))

def waits : Reader ε α → Bool
  | .done _ => false
  | .need _ _ => true

/-- One poll while `bs` has arrived: take what is needed of it, and wait if that is not
    enough. The second component is what stays in the stream. -/
def feed : Reader ε α → Bytes → Reader ε α × Bytes
  | .done r, bs => (.done r, bs)
  | .need n next, bs =>
    if n ≤ bs.length then (next (bs.take n)).feed (bs.drop n)
    else (.need (n - bs.length) fun more => next (bs ++ more), [])

variable {bs : Bytes} {n : Nat} {r : Reader ε α}

theorem feed_need_of_le {next : Bytes → Reader ε α} (h : n ≤ bs.length) :
    (Reader.need n next).feed bs = (next (bs.take n)).feed (bs.drop n) := by
  rw [feed, if_pos h]

theorem feed_need_of_lt {next : Bytes → Reader ε α} (h : bs.length < n) :
    (Reader.need n next).feed bs = (.need (n - bs.length) fun more => next (bs ++ more), []) := by
  rw [feed, if_neg (by omega)]

/-- A read that waits has taken all there was. -/
theorem feed_of_waits (h : (r.feed bs).1.waits = true) : (r.feed bs).2 = [] := by
  induction r generalizing bs with
  | done r => cases h
  | need n next ih =>
    by_cases hn : n ≤ bs.length
    · rw [feed_need_of_le hn] at h ⊢
      exact ih _ h
    · rw [feed_need_of_lt (by omega)]

variable {rest : Bytes}

/-- A read that ends takes its bytes from the front, and would have ended on these alone. -/
theorem feed_exact {x : Except ε α}
    (h : r.feed bs = (.done x, rest)) : ∃ cs, bs = cs ++ rest ∧ r.feed cs = (.done x, []) := by
  induction r generalizing bs with
  | done y =>
    cases h
    exact ⟨[], rfl, rfl⟩
  | need n next ih =>
    by_cases hn : n ≤ bs.length
    · rw [feed_need_of_le hn] at h
      obtain ⟨cs, hcs, hfeed⟩ := ih _ h
      refine ⟨bs.take n ++ cs, ?_, ?_⟩
      · rw [append_assoc, ← hcs, take_append_drop]
      simp_all [feed_need_of_le, length_append, take_left', drop_left']
    · rw [feed_need_of_lt (by omega)] at h
      cases h

/-- Two polls are one poll with the bytes of both. -/
theorem feed_append (r : Reader ε α) (bs cs : Bytes) :
    r.feed (bs ++ cs) = (r.feed bs).1.feed ((r.feed bs).2 ++ cs) := by
  induction r generalizing bs cs with
  | done r => rfl
  | need n next ih =>
    by_cases hn : n ≤ bs.length
    · rw [feed_need_of_le hn, feed_need_of_le (by rw [length_append]; omega),
        take_append_of_le_length hn, drop_append_of_le_length hn]
      exact ih _ _ _
    · have hlt : bs.length < n := by omega
      rw [feed_need_of_lt hlt, nil_append]
      by_cases hm : n ≤ (bs ++ cs).length
      · have hrest : n - bs.length ≤ cs.length := by rw [length_append] at hm; omega
        rw [feed_need_of_le hm, feed_need_of_le hrest, take_append, drop_append,
          take_of_length_le (by omega), drop_of_length_le (by omega), nil_append]
      grind [length_append, feed_need_of_lt, Nat.sub_add_eq, append_assoc]

/-! ## Against a whole stream -/

/-- The read as an action on a stream that holds all there will ever be. -/
def toIo : Reader ε α → Io ε α
  | .done r => Io.lift r
  | .need n next => Io.readExact n >>= fun bs => (next bs).toIo

/-- How a read ends on a stream that holds nothing but what it was polled with. -/
def outcome (out : Bytes) : Reader ε α × Bytes → Except (Fault ε) α × Stream
  | (.done (.ok a), rest) => (.ok a, ⟨rest, out⟩)
  | (.done (.error e), rest) => (.error (.bail e), ⟨rest, out⟩)
  | (.need _ _, rest) => (.error .eof, ⟨rest, out⟩)

theorem toIo_apply (r : Reader ε α) (bs out : Bytes) : r.toIo ⟨bs, out⟩ = outcome out (r.feed bs) := by
  induction r generalizing bs with
  | done r => cases r <;> rfl
  | need n next ih =>
    rw [toIo, Io.bind_apply, Io.readExact]
    by_cases hn : n ≤ bs.length
    · rw [if_pos hn, feed_need_of_le hn]
      exact ih _ _
    · rw [if_neg hn, feed_need_of_lt (by omega)]
      rfl

theorem bind_need (n : Nat) (next : Bytes → Reader ε α) (f : α → Reader ε β) :
    (Reader.need n next >>= f) = .need n fun bs => next bs >>= f := rfl

theorem toIo_bind (r : Reader ε α) (f : α → Reader ε β) : (r >>= f).toIo = r.toIo >>= fun a => (f a).toIo := by
  induction r with
  | done r => cases r <;> rfl
  | need n next ih =>
    funext s
    simp only [bind_need, toIo, Io.bind_apply, ih]
    cases Io.readExact n s with
    | mk r m => cases r <;> rfl

@[simp] theorem toIo_bailIf (c : Prop) [Decidable c] (e : ε) : (bailIf c e).toIo = Io.bailIf c e := by
  unfold bailIf Io.bailIf
  split <;> rfl

@[simp] theorem toIo_readExact (n : Nat) : (readExact n : Reader ε Bytes).toIo = Io.readExact n := by
  funext s
  simp only [readExact, toIo, Io.bind_apply]
  cases Io.readExact n s with
  | mk r m => cases r <;> rfl

@[simp] theorem toIo_readU8 : (readU8 : Reader ε UInt8).toIo = Io.readU8 := by
  funext s
  obtain ⟨input, output⟩ := s
  cases input <;> rfl

@[simp] theorem toIo_readU16 : (readU16 : Reader ε UInt16).toIo = Io.readU16 := by
  funext s
  obtain ⟨input, output⟩ := s
  rcases input with _ | ⟨hi, _ | ⟨lo, rest⟩⟩ <;> rfl

/-- A read that ends with a message at the last byte is an exact run of its action. -/
theorem runs_of_feed {a : α} (h : r.feed bs = (.done (.ok a), [])) : Runs r.toIo bs a [] := by
  intro rest out
  rw [toIo_apply, feed_append, h, append_nil]
  rfl

end Reader

/-! ## Waiting reads -/

/-- A read that was started as `start` and waits for more. -/
structure Reading {ε α : Type} (start : Reader ε α) where
  /-- What it has taken from the stream. -/
  taken : Bytes
  waits : (start.feed taken).1.waits = true

/-- What a poll of a waiting read gives: its result and what stays in the stream, or a
    read that has taken everything and waits on. -/
inductive Polled {ε α : Type} (start : Reader ε α) where
  | ready (result : Except ε α) (rest : Bytes)
  | pending (reading : Reading start)

namespace Reading
variable {ε α : Type} {start : Reader ε α}

theorem feed_taken_append (p : Reading start) (bs : Bytes) :
    start.feed (p.taken ++ bs) = (start.feed p.taken).1.feed bs := by
  rw [Reader.feed_append, Reader.feed_of_waits p.waits, nil_append]

/-- Poll the read while `arrived` is in the stream. -/
def poll (p : Reading start) (arrived : Bytes) : Polled start :=
  match h : ((start.feed p.taken).1.feed arrived).1 with
  | .done result => .ready result ((start.feed p.taken).1.feed arrived).2
  | .need _ _ => .pending ⟨p.taken ++ arrived, by rw [feed_taken_append, h]; rfl⟩

/-- A poll is ready exactly when the read from its start ends within the bytes taken
    and the bytes arrived. -/
theorem poll_ready {p : Reading start} {arrived : Bytes} {r : Except ε α}
    (h : p.poll arrived = .ready r rest) : start.feed (p.taken ++ arrived) = (.done r, rest) := by
  rw [feed_taken_append]
  grind [poll, Prod.ext]

theorem poll_pending {p q : Reading start} {arrived : Bytes} (h : p.poll arrived = .pending q) :
    q.taken = p.taken ++ arrived := by
  unfold poll at h
  split at h
  · cases h
  · cases h
    rfl

end Reading

/-! ## Streams of messages -/

/-- `bs` holds the messages `fs` one after the other and nothing else. -/
inductive Frames {ε α : Type} (x : Io ε α) : List α → Bytes → Prop where
  | nil : Frames x [] []
  | cons {f : α} {fs : List α} {bs cs : Bytes} (h : Runs x bs f []) (t : Frames x fs cs) :
      Frames x (f :: fs) (bs ++ cs)

theorem Runs.unique {ε α : Type} {x : Io ε α} {bs cs ds es : Bytes} {a b : α}
    (ha : Runs x bs a []) (hb : Runs x cs b []) (h : bs ++ ds = cs ++ es) : a = b ∧ bs = cs ∧ ds = es := by
  have h1 := ha ds []
  rw [h, hb es []] at h1
  simp_all

namespace Frames
variable {ε α : Type} {x : Io ε α} {fs gs : List α} {bs cs : Bytes}

theorem append_one (h : Frames x fs bs) {f : α} (hf : Runs x cs f []) : Frames x (fs ++ [f]) (bs ++ cs) := by
  induction h with
  | nil => simpa using Frames.cons hf .nil
  | cons hg _ ih =>
    rw [cons_append, append_assoc]
    exact .cons hg ih

theorem split (h : Frames x (fs ++ gs) bs) : ∃ b c, bs = b ++ c ∧ Frames x fs b ∧ Frames x gs c := by
  induction fs generalizing bs with
  | nil => exact ⟨[], bs, rfl, .nil, h⟩
  | cons f fs ih =>
    cases h with
    | cons hf t =>
      obtain ⟨b, c, rfl, hb, hc⟩ := ih t
      exact ⟨_ ++ b, c, (append_assoc ..).symm, .cons hf hb, hc⟩

/-- The bytes determine the messages: a stream that continues another one holds its
    messages and more. No message may be empty. -/
theorem of_append (hpos : ∀ b f, Runs x b f [] → b ≠ []) (hg : Frames x gs bs)
    (hf : Frames x fs (bs ++ rest)) : ∃ hs, fs = gs ++ hs ∧ Frames x hs rest := by
  induction hg generalizing fs with
  | nil => exact ⟨fs, rfl, hf⟩
  | cons hrun _ ih =>
    rw [append_assoc] at hf
    generalize hall : _ ++ (_ ++ rest) = all at hf
    cases hf with
    | nil => exact absurd (append_eq_nil_iff.mp hall).1 (hpos _ _ hrun)
    | cons hrun' ht =>
      obtain ⟨rfl, rfl, rfl⟩ := hrun.unique hrun' hall
      obtain ⟨hs, rfl, hrest⟩ := ih ht
      exact ⟨hs, rfl, hrest⟩

theorem eq_nil_of_append (hpos : ∀ b f, Runs x b f [] → b ≠ []) (hf : Frames x fs bs)
    (hf' : Frames x fs (bs ++ rest)) : rest = [] := by
  obtain ⟨hs, heq, hrest⟩ := hf.of_append hpos hf'
  have hnil : hs = [] := self_eq_append_right.mp heq
  subst hnil
  cases hrest
  rfl

/-- Messages that stand at the front of a stream end at one place of it. -/
theorem cancel (hf : Frames x fs bs) (hg : Frames x fs cs) {ds es : Bytes} (h : bs ++ ds = cs ++ es) : ds = es := by
  induction hf generalizing cs with
  | nil =>
    cases hg
    exact h
  | cons hrun _ ih =>
    cases hg with
    | cons hrun' ht =>
      rw [append_assoc, append_assoc] at h
      exact ih ht (hrun.unique hrun' h).2.2

end Frames

/-- The first messages of a stream, and until its reader returns every byte that was delivered belongs to one
    of them, is held by a read or is still there. -/
def Framing {ε α : Type} (x : Io ε α) (fs : List α) (returned : Bool) (held arrived delivered : Bytes) : Prop :=
  ∃ consumed, Frames x fs consumed ∧ consumed <+: delivered ∧
    (returned = false → delivered = consumed ++ (held ++ arrived))

namespace Framing
variable {ε α : Type} {x : Io ε α} {fs fs' : List α} {returned returned' : Bool}
  {held held' arrived arrived' delivered delivered' : Bytes}

theorem move (h : Framing x fs returned held arrived delivered) (chunk : Bytes) (hframes : fs' = fs)
    (hdelivered : delivered' = delivered ++ chunk)
    (hbytes : returned' = false → returned = false ∧ held' ++ arrived' = held ++ arrived ++ chunk) :
    Framing x fs' returned' held' arrived' delivered' := by
  obtain ⟨consumed, hfs, hpre, hall⟩ := h
  refine ⟨consumed, hframes ▸ hfs, ?_, ?_⟩
  · rw [hdelivered]
    exact hpre.trans (prefix_append _ _)
  simp_all

variable (hpos : ∀ b f, Runs x b f [] → b ≠ [])
include hpos

/-- A read that is dropped loses what it holds. -/
theorem drop_iff (h : Framing x fs false held arrived delivered) :
    Framing x fs false [] arrived delivered ↔ held = [] := by
  constructor
  · rintro ⟨consumed', hfs', -, hall'⟩
    obtain ⟨consumed, hfs, -, hall⟩ := h
    have heq : consumed' ++ arrived = (consumed ++ held) ++ arrived := by
      rw [append_assoc, ← hall rfl, hall' rfl, nil_append]
    rw [append_cancel_right heq] at hfs'
    exact hfs.eq_nil_of_append hpos hfs'
  · rintro rfl
    exact h

/-- Whatever stream the bytes are the beginning of, the messages are its first. -/
theorem prefix_of_frames (h : Framing x fs returned held arrived delivered) {gs : List α} {stream : Bytes}
    (hstream : Frames x gs stream) (hpre : delivered <+: stream) : fs <+: gs := by
  obtain ⟨consumed, hfs, hconsumed, -⟩ := h
  obtain ⟨rest, rfl⟩ := hconsumed.trans hpre
  obtain ⟨more, rfl, -⟩ := hfs.of_append hpos hstream
  exact prefix_append _ _

end Framing

end Xhttp.Lib
