import Xhttp.Lib.Reader
import Xhttp.Lib.Run

/- A loop that reads messages inside `select!`. In each round it polls a read next to another branch; if that one
   is ready first, the read is dropped with the bytes it has taken. The first read of the loop may have to
   take a header, which a flag records once it is done.

   `Framed` says that nothing is lost: the stream so far is the header, the messages acted on, what the pending
   read holds and what has arrived. `framed_step_iff` is the step rule, `framed_run` the rule for whole runs, and
   `Framed.prefix_of_frames` what follows for the packets that were passed on. -/
namespace Xhttp.Lib.SelectLoop
open List

/-- What the loop does with a message. -/
inductive Verdict (π : Type) where
  | skip
  | packet (p : π)
  | stop

/-- The reads of a loop: its header, and a message. Both wait on an empty stream. -/
structure Protocol (ε φ π : Type) where
  header : Reader ε Unit
  message : Reader ε φ
  verdict : φ → Verdict π
  inLoop : Bool
  headerWaits : (header.feed []).1.waits = true
  messageWaits : (message.feed []).1.waits = true

variable {ε φ π : Type} (P : Protocol ε φ π)

/-- The packets of messages, up to one that stops the loop. -/
def Protocol.packets : List φ → List π
  | [] => []
  | f :: fs =>
    match P.verdict f with
    | .skip => Protocol.packets fs
    | .packet p => p :: Protocol.packets fs
    | .stop => []

theorem Protocol.packets_append {fs gs : List φ} (h : ∀ f ∈ fs, P.verdict f ≠ .stop) :
    P.packets (fs ++ gs) = P.packets fs ++ P.packets gs := by
  induction fs with
  | nil => rfl
  | cons f fs ih =>
    have hrest := ih fun g hg => h g (mem_cons_of_mem f hg)
    rw [cons_append, packets, packets, hrest]
    cases hverdict : P.verdict f with
    | skip | packet p => rfl
    | stop => exact absurd hverdict (h f mem_cons_self)

theorem Protocol.packets_prefix {fs gs : List φ} (h : fs <+: gs) : P.packets fs <+: P.packets gs := by
  obtain ⟨more, rfl⟩ := h
  induction fs with
  | nil => exact nil_prefix
  | cons f fs ih =>
    rw [cons_append, packets, packets]
    grind

inductive Phase where
  /-- Both branches of `select!` pending, with the header to be read first. -/
  | header (reading : Reading P.header)
  | message (reading : Reading P.message)
  | other
  | passing (p : π)
  | returned

/-- `held` is what the pending read has taken. -/
def Phase.held {P : Protocol ε φ π} : Phase P → Bytes
  | .header reading => reading.taken
  | .message reading => reading.taken
  | _ => []

structure State where
  /-- Bytes that no read has taken yet. -/
  arrived : Bytes
  closed : Bool
  headerRead : Bool
  phase : Phase P
  /-- All bytes that ever arrived. Only recorded, as are the next fields. -/
  delivered : Bytes
  acted : List φ
  passed : List π

inductive Event where
  | deliver (chunk : Bytes)
  | close
  | poll
  /-- The other branch is ready: the read is dropped. -/
  | other
  /-- The other branch has ended the loop, or a timeout has. -/
  | ended
  | handled (ok : Bool)
  | passed (ok : Bool)

namespace State
variable {P}

/-- A new round, with the read that the flag asks for. -/
def round (s : State P) : State P :=
  { s with phase := if s.headerRead then .message ⟨[], P.messageWaits⟩ else .header ⟨[], P.headerWaits⟩ }

/-- What a message does to the loop. -/
def act (s : State P) (f : φ) : State P :=
  let s := { s with acted := s.acted ++ [f] }
  match P.verdict f with
  | .skip => s.round
  | .packet p => { s with phase := .passing p }
  | .stop => { s with phase := .returned }

/-- A read that waits has taken all there was; at the end of the stream it fails. -/
def wait (s : State P) (phase : Phase P) : State P :=
  { s with arrived := [], phase := if s.closed then .returned else phase }

def poll (s : State P) : Option (State P) :=
  match s.phase with
  | .header reading =>
    match reading.poll s.arrived with
    | .ready (.ok _) rest => some { s with arrived := rest, headerRead := true, phase := .message ⟨[], P.messageWaits⟩ }
    | .ready (.error _) rest => some { s with arrived := rest, phase := .returned }
    | .pending reading => some (s.wait (.header reading))
  | .message reading =>
    match reading.poll s.arrived with
    | .ready (.ok f) rest => some (State.act { s with arrived := rest } f)
    | .ready (.error _) rest => some { s with arrived := rest, phase := .returned }
    | .pending reading => some (s.wait (.message reading))
  | _ => none

def selecting (s : State P) : Bool :=
  match s.phase with
  | .header _ | .message _ => true
  | _ => false

def step (s : State P) : Event → Option (State P)
  | .deliver chunk =>
    if s.closed then none
    else some { s with arrived := s.arrived ++ chunk, delivered := s.delivered ++ chunk }
  | .close => some { s with closed := true }
  | .poll => s.poll
  | .other => if s.selecting then some { s with phase := .other } else none
  | .ended => if s.selecting then some { s with phase := .returned } else none
  | .handled ok =>
    match s.phase with
    | .other => some (if ok then s.round else { s with phase := .returned })
    | _ => none
  | .passed ok =>
    match s.phase with
    | .passing p =>
      some (if ok then State.round { s with passed := s.passed ++ [p] } else { s with phase := .returned })
    | _ => none

variable (P) in
def start : State P :=
  round
    { arrived := [], closed := false, headerRead := !P.inLoop, phase := .returned
      delivered := [], acted := [], passed := [] }

def Going (s : State P) : Prop := ∀ f ∈ s.acted, P.verdict f ≠ .stop

/-- The packets of the messages acted on have been passed on, but for one that is in hand. -/
def Passed (s : State P) : Prop :=
  match s.phase with
  | .passing p => s.Going ∧ s.passed ++ [p] = P.packets s.acted
  | .returned => s.passed <+: P.packets s.acted
  | _ => s.Going ∧ s.passed = P.packets s.acted

/-- The bytes of the header: none before it is read, and none where it is not read in the loop. -/
def HeaderBytes (s : State P) (head : Bytes) : Prop :=
  if P.inLoop && s.headerRead then Runs P.header.toIo head () [] else head = []

/-- The read that is pending is the one the flag asks for, and before the header no message is read. -/
def InOrder (s : State P) : Prop :=
  (s.headerRead = false → P.inLoop = true ∧ s.acted = []) ∧
    match s.phase with
    | .header _ => s.headerRead = false
    | .message _ => s.headerRead = true
    | _ => True

/-- Nothing is lost. -/
def Framed (s : State P) : Prop :=
  ∃ head consumed, s.HeaderBytes head ∧ Frames P.message.toIo s.acted consumed ∧ head ++ consumed <+: s.delivered ∧
    (s.phase ≠ .returned → s.delivered = head ++ consumed ++ (s.phase.held ++ s.arrived))

/-- The other branch is taken only while the read has taken nothing. -/
def Undropped (s : State P) : Event → Prop
  | .other => s.phase.held = []
  | _ => True

instance (s : State P) : ∀ e, Decidable (s.Undropped e)
  | .other => inferInstanceAs (Decidable (s.phase.held = []))
  | .deliver _ | .close | .poll | .ended | .handled _ | .passed _ => isTrue trivial

variable {s s' : State P}

/-! ## What every step keeps -/

theorem inOrder_round (h : s.headerRead = false → P.inLoop = true ∧ s.acted = []) : s.round.InOrder := by
  refine ⟨h, ?_⟩
  grind [round]

theorem inOrder_start : (start P).InOrder := by
  refine inOrder_round fun h => ⟨?_, rfl⟩
  simpa using h

variable {reading : Reading P.message} {f : φ} {e : Event} {rest : Bytes} {events : List Event}

theorem InOrder.message (h : s.InOrder) (hphase : s.phase = .message reading) : s.headerRead = true := by
  have := h.2
  rwa [hphase] at this

theorem InOrder.header {reading : Reading P.header} (h : s.InOrder) (hphase : s.phase = .header reading) :
    s.headerRead = false := by
  have := h.2
  rwa [hphase] at this

theorem inOrder_act (h : s.headerRead = true) : (s.act f).InOrder := by
  have hread : s.headerRead = false → P.inLoop = true ∧ s.acted ++ [f] = [] := fun hno => by
    rw [h] at hno
    cases hno
  unfold act
  cases P.verdict f with
  | skip => exact inOrder_round hread
  | packet p | stop => exact ⟨hread, trivial⟩

theorem inOrder_wait {phase : Phase P} (h : s.headerRead = false → P.inLoop = true ∧ s.acted = [])
    (hphase : InOrder { s with phase := phase }) : (s.wait phase).InOrder := by
  refine ⟨h, ?_⟩
  unfold wait
  cases s.closed with
  | false => exact hphase.2
  | true => trivial

inductive Steps (s : State P) : Event → State P → Prop where
  | delivered {chunk : Bytes} :
      Steps s (.deliver chunk) { s with arrived := s.arrived ++ chunk, delivered := s.delivered ++ chunk }
  | closed : Steps s .close { s with closed := true }
  | headerDone {reading : Reading P.header} {rest : Bytes} (hphase : s.phase = .header reading)
      (hpoll : reading.poll s.arrived = .ready (.ok ()) rest) :
      Steps s .poll { s with arrived := rest, headerRead := true, phase := .message ⟨[], P.messageWaits⟩ }
  | messageDone {reading : Reading P.message} {f : φ} {rest : Bytes} (hphase : s.phase = .message reading)
      (hpoll : reading.poll s.arrived = .ready (.ok f) rest) : Steps s .poll (State.act { s with arrived := rest } f)
  | failed {rest : Bytes} : Steps s .poll { s with arrived := rest, phase := .returned }
  | headerWaits {reading reading' : Reading P.header} (hphase : s.phase = .header reading)
      (hpoll : reading.poll s.arrived = .pending reading') : Steps s .poll (s.wait (.header reading'))
  | messageWaits {reading reading' : Reading P.message} (hphase : s.phase = .message reading)
      (hpoll : reading.poll s.arrived = .pending reading') : Steps s .poll (s.wait (.message reading'))
  | other (hselecting : s.selecting = true) : Steps s .other { s with phase := .other }
  | returns {e : Event} (he : e ≠ .other) : Steps s e { s with phase := .returned }
  | handled (hphase : s.phase = .other) : Steps s (.handled true) s.round
  | passed {p : π} (hphase : s.phase = .passing p) :
      Steps s (.passed true) (State.round { s with passed := s.passed ++ [p] })

theorem steps_of_step (h : s.step e = some s') : Steps s e s' := by
  cases e with
  | deliver chunk =>
    simp only [step] at h
    split at h
    · cases h
    · cases h
      exact .delivered
  | close =>
    cases h
    exact .closed
  | poll =>
    simp only [step, poll] at h
    split at h
    · next reading hphase =>
      split at h
      · next hpoll =>
        cases h
        exact .headerDone hphase hpoll
      · cases h
        exact .failed
      · next hpoll =>
        cases h
        exact .headerWaits hphase hpoll
    · next reading hphase =>
      split at h
      · next hpoll =>
        cases h
        exact .messageDone hphase hpoll
      · cases h
        exact .failed
      · next hpoll =>
        cases h
        exact .messageWaits hphase hpoll
    · cases h
  | other =>
    simp only [step] at h
    split at h
    · next hselecting =>
      cases h
      exact .other hselecting
    · cases h
  | ended =>
    simp only [step] at h
    split at h
    · cases h
      exact .returns (by simp)
    · cases h
  | handled ok =>
    simp only [step] at h
    split at h
    · next hphase =>
      cases h
      cases ok with
      | false => exact .returns (by simp)
      | true => exact .handled hphase
    · cases h
  | passed ok =>
    simp only [step] at h
    split at h
    · next hphase =>
      cases h
      cases ok with
      | false => exact .returns (by simp)
      | true => exact .passed hphase
    · cases h

theorem inOrder_step (h : s.InOrder) (hstep : s.step e = some s') : s'.InOrder := by
  cases steps_of_step hstep with
  | delivered | closed => exact h
  | headerDone => exact ⟨nofun, rfl⟩
  | messageDone hphase => exact inOrder_act (h.message hphase)
  | failed | other | returns => exact ⟨h.1, trivial⟩
  | headerWaits hphase => exact inOrder_wait h.1 ⟨h.1, h.header hphase⟩
  | messageWaits hphase => exact inOrder_wait h.1 ⟨h.1, h.message hphase⟩
  | handled | passed => exact inOrder_round h.1

/-- In any place, what was passed on is the beginning of the packets of the messages acted on. -/
theorem Passed.isPrefix (h : s.Passed) : s.passed <+: P.packets s.acted := by
  grind [Passed]

theorem passed_round (hgoing : s.Going) (h : s.passed = P.packets s.acted) : s.round.Passed := by
  cases hread : s.headerRead with
  | false | true => simpa [round, hread, Passed] using ⟨hgoing, h⟩

theorem passed_start : (start P).Passed := passed_round nofun rfl

theorem passed_act (hgoing : s.Going) (h : s.passed = P.packets s.acted) : (s.act f).Passed := by
  have hone : P.packets (s.acted ++ [f]) = s.passed ++ P.packets [f] := by
    rw [P.packets_append hgoing, h]
  have hmore : P.verdict f ≠ .stop → ∀ g ∈ s.acted ++ [f], P.verdict g ≠ .stop := by
    intro hf g hg
    rcases mem_append.mp hg with hg | hg
    · exact hgoing g hg
    · rwa [mem_singleton.mp hg]
  unfold act
  cases hverdict : P.verdict f with
  | skip =>
    refine passed_round (hmore (by rw [hverdict]; exact nofun)) ?_
    rw [hone, Protocol.packets, hverdict]
    exact (append_nil _).symm
  | packet p =>
    refine ⟨hmore (by rw [hverdict]; exact nofun), ?_⟩
    rw [hone, Protocol.packets, hverdict]
    rfl
  | stop =>
    show s.passed <+: P.packets (s.acted ++ [f])
    rw [hone]
    exact prefix_append _ _

theorem Passed.wait {phase : Phase P} (h : s.passed = P.packets s.acted)
    (hphase : Passed { s with phase := phase }) : (s.wait phase).Passed := by
  unfold State.wait
  cases s.closed with
  | false => exact hphase
  | true => exact h ▸ prefix_rfl

theorem Passed.of_selecting (h : s.Passed) (hselecting : s.selecting = true) :
    s.Going ∧ s.passed = P.packets s.acted := by
  grind [selecting, Passed]

theorem passed_step (h : s.Passed) (hstep : s.step e = some s') : s'.Passed := by
  cases steps_of_step hstep with
  | delivered | closed => exact h
  | headerDone hphase => exact h.of_selecting (by rw [selecting, hphase])
  | messageDone hphase =>
    obtain ⟨hgoing, hpassed⟩ := h.of_selecting (by rw [selecting, hphase])
    exact passed_act hgoing hpassed
  | failed | returns => exact h.isPrefix
  | headerWaits hphase | messageWaits hphase =>
    have hselect := h.of_selecting (by rw [selecting, hphase])
    exact Passed.wait hselect.2 hselect
  | other hselecting => exact h.of_selecting hselecting
  | handled hphase | passed hphase =>
    unfold Passed at h
    rw [hphase] at h
    exact passed_round h.1 h.2

/-! ## Framing -/

/-- A step that moves bytes along: `chunk` arrives, and what was taken is held. -/
theorem Framed.move (h : s.Framed) (chunk : Bytes) (hread : s'.headerRead = s.headerRead) (hacted : s'.acted = s.acted)
    (hdelivered : s'.delivered = s.delivered ++ chunk) (hbytes : s'.phase ≠ .returned →
      s.phase ≠ .returned ∧ s'.phase.held ++ s'.arrived = s.phase.held ++ s.arrived ++ chunk) : s'.Framed := by
  obtain ⟨head, consumed, hhead, hframes, hpre, hall⟩ := h
  refine ⟨head, consumed, ?_, hacted ▸ hframes, ?_, ?_⟩
  · rw [HeaderBytes, hread]
    exact hhead
  · rw [hdelivered]
    exact hpre.trans (prefix_append _ _)
  simp_all

theorem Framed.returns (h : s.Framed) (arrived : Bytes) :
    ({ s with arrived := arrived, phase := .returned } : State P).Framed :=
  h.move [] rfl rfl (append_nil _).symm (absurd rfl)

theorem held_round (s : State P) : s.round.phase.held = [] := by
  grind [round, Phase.held]

/-- A new round after a place where no read is pending. -/
theorem Framed.round (h : s.Framed) (hret : s.phase ≠ .returned) (hheld : s.phase.held = []) (passed : List π) :
    Framed (State.round { s with passed := passed }) :=
  h.move [] rfl rfl (append_nil _).symm fun _ => ⟨hret, by
    rw [held_round, hheld, append_nil]
    rfl⟩

theorem Framed.wait (h : s.Framed) {phase : Phase P} (hret : s.phase ≠ .returned)
    (hheld : phase.held = s.phase.held ++ s.arrived) : Framed (s.wait phase) := by
  refine h.move [] rfl rfl (append_nil _).symm fun hne => ⟨hret, ?_⟩
  simp_all [State.wait]

theorem framed_headerDone {reading : Reading P.header} (hJ : s.InOrder) (hF : s.Framed)
    (hphase : s.phase = .header reading) (hpoll : reading.poll s.arrived = .ready (.ok ()) rest) :
    ({ s with arrived := rest, headerRead := true, phase := .message ⟨[], P.messageWaits⟩ } : State P).Framed := by
  obtain ⟨head, consumed, hhead, hframes, -, hall⟩ := hF
  obtain ⟨hinLoop, hacted⟩ := hJ.1 (hJ.header hphase)
  obtain rfl : head = [] := by
    rwa [HeaderBytes, hJ.header hphase, Bool.and_false] at hhead
  obtain rfl : consumed = [] := by
    rw [hacted] at hframes
    cases hframes
    rfl
  obtain ⟨cs, hcs, hread⟩ := Reader.feed_exact (Reading.poll_ready hpoll)
  have hsplit : s.delivered = cs ++ rest := by
    rw [hall (by rw [hphase]; exact nofun), hphase]
    exact hcs
  refine ⟨cs, [], ?_, hframes, ?_, fun _ => ?_⟩
  · simpa [HeaderBytes, hinLoop] using Reader.runs_of_feed hread
  · rw [append_nil, hsplit]
    exact prefix_append _ _
  · rw [append_nil]
    exact hsplit

theorem act_stream (s : State P) (f : φ) :
    (s.act f).acted = s.acted ++ [f] ∧ (s.act f).delivered = s.delivered ∧ (s.act f).arrived = s.arrived ∧
      (s.act f).headerRead = s.headerRead ∧ (s.act f).phase.held = [] := by
  unfold act
  cases P.verdict f with
  | skip => exact ⟨rfl, rfl, rfl, rfl, held_round _⟩
  | packet p | stop => exact ⟨rfl, rfl, rfl, rfl, rfl⟩

theorem framed_messageDone (hF : s.Framed)
    (hphase : s.phase = .message reading) (hpoll : reading.poll s.arrived = .ready (.ok f) rest) :
    Framed (State.act { s with arrived := rest } f) := by
  obtain ⟨head, consumed, hhead, hframes, -, hall⟩ := hF
  obtain ⟨hacted, hdelivered, harrived, hheaderRead, hheld⟩ := act_stream { s with arrived := rest } f
  obtain ⟨cs, hcs, hread⟩ := Reader.feed_exact (Reading.poll_ready hpoll)
  have hsplit : s.delivered = head ++ (consumed ++ cs) ++ rest := by
    rw [hall (by rw [hphase]; exact nofun), hphase, Phase.held, hcs]
    simp only [append_assoc]
  refine ⟨head, consumed ++ cs, ?_, ?_, ?_, fun _ => ?_⟩
  · rw [HeaderBytes, hheaderRead]
    exact hhead
  · rw [hacted]
    exact hframes.append_one (Reader.runs_of_feed hread)
  · rw [hdelivered]
    exact ⟨rest, hsplit.symm⟩
  · rw [hdelivered, hheld, harrived]
    exact hsplit

theorem runs_message_ne_nil (b : Bytes) (f : φ) (h : Runs P.message.toIo b f []) : b ≠ [] := by
  rintro rfl
  have happly := h [] []
  have hwaits := P.messageWaits
  rw [append_nil, Reader.toIo_apply] at happly
  cases hfeed : P.message.feed [] with
  | mk r rest =>
    rw [hfeed] at hwaits happly
    cases r with
    | done x => cases hwaits
    | need n next => cases happly

/-- The two accounts of a stream are the same up to where the messages end. -/
theorem account_unique {head head' consumed consumed' tail tail' : Bytes} (hhead : s.HeaderBytes head)
    (hhead' : s.HeaderBytes head') (hframes : Frames P.message.toIo s.acted consumed)
    (hframes' : Frames P.message.toIo s.acted consumed')
    (h : head ++ consumed ++ tail = head' ++ consumed' ++ tail') : tail = tail' := by
  have hsame : consumed ++ tail = consumed' ++ tail' := by
    unfold HeaderBytes at hhead hhead'
    split at hhead
    · next hloop =>
      rw [if_pos hloop] at hhead'
      rw [append_assoc, append_assoc] at h
      exact (hhead.unique hhead' h).2.2
    · simp_all
  exact hframes.cancel hframes' hsame

/-- The other branch is taken: the read is dropped, and what it had taken is lost. -/
theorem framed_other (hF : s.Framed) (hselecting : s.selecting = true) :
    ({ s with phase := .other } : State P).Framed ↔ s.phase.held = [] := by
  have hret : s.phase ≠ .returned := by
    intro hphase
    rw [selecting, hphase] at hselecting
    cases hselecting
  constructor
  · rintro ⟨head', consumed', hhead', hframes', -, hall'⟩
    obtain ⟨head, consumed, hhead, hframes, -, hall⟩ := hF
    have hdelivered : s.delivered = head' ++ consumed' ++ s.arrived := hall' nofun
    have htail := account_unique hhead hhead' hframes hframes' ((hall hret).symm.trans hdelivered)
    exact append_left_eq_self.mp htail
  · intro hnil
    refine hF.move [] rfl rfl (append_nil _).symm fun _ => ⟨hret, ?_⟩
    rw [hnil, append_nil]
    rfl

/-- **One step.** Nothing is lost exactly when no read is dropped that has taken something. -/
theorem framed_step_iff (hJ : s.InOrder) (hF : s.Framed) (h : s.step e = some s') : s'.Framed ↔ Undropped s e := by
  cases steps_of_step h with
  | other hselecting => exact framed_other hF hselecting
  | delivered =>
    refine iff_of_true (hF.move _ rfl rfl rfl fun hret => ⟨hret, ?_⟩) trivial
    exact (append_assoc ..).symm
  | closed => exact iff_of_true (hF.move [] rfl rfl (append_nil _).symm fun hret => ⟨hret, (append_nil _).symm⟩) trivial
  | headerDone hphase hpoll => exact iff_of_true (framed_headerDone hJ hF hphase hpoll) trivial
  | messageDone hphase hpoll => exact iff_of_true (framed_messageDone hF hphase hpoll) trivial
  | failed => exact iff_of_true (hF.returns _) trivial
  | headerWaits hphase hpoll | messageWaits hphase hpoll =>
    refine iff_of_true (hF.wait (by rw [hphase]; exact nofun) ?_) trivial
    rw [hphase]
    exact Reading.poll_pending hpoll
  | returns he =>
    refine iff_of_true (hF.returns s.arrived) ?_
    cases e <;> first | exact absurd rfl he | trivial
  | handled hphase | passed hphase =>
    exact iff_of_true (hF.round (by rw [hphase]; exact nofun) (by rw [hphase]; rfl) _) trivial

theorem framed_start : (start P).Framed := by
  refine ⟨[], [], ?_, .nil, nil_prefix, fun _ => ?_⟩
  · simp [HeaderBytes, start, State.round]
  · rw [start, held_round]
    rfl

/-- In every run that drops no read that has taken something, nothing is lost. -/
theorem framed_run (hrun : run step (start P) events = some s)
    (halong : Along step Undropped (start P) events) : s.Framed ∧ s.InOrder ∧ s.Passed := by
  have hall := run_inv_along (fun s : State P => s.Framed ∧ s.InOrder ∧ s.Passed) Undropped
    (fun s e s' hund hinv h =>
      ⟨(framed_step_iff hinv.2.1 hinv.1 h).mpr hund, inOrder_step hinv.2.1 h, passed_step hinv.2.2 h⟩)
    events halong ⟨framed_start, inOrder_start, passed_start⟩ hrun
  exact hall

/-- Whatever stream the bytes are the beginning of, the messages acted on are its first. -/
theorem Framed.prefix_of_frames (h : s.Framed) (hJ : s.InOrder) {head body : Bytes} {messages : List φ}
    (hhead : if P.inLoop then Runs P.header.toIo head () [] else head = [])
    (hbody : Frames P.message.toIo messages body) (hpre : s.delivered <+: head ++ body) : s.acted <+: messages := by
  obtain ⟨head', consumed, hhead', hframes, hconsumed, -⟩ := h
  cases hread : s.headerRead with
  | false =>
    rw [(hJ.1 hread).2]
    exact nil_prefix
  | true =>
    rw [HeaderBytes, hread, Bool.and_true] at hhead'
    obtain ⟨rest, hrest⟩ := hconsumed.trans hpre
    have hsame : consumed ++ rest = body := by
      split at hhead
      · next hloop =>
        rw [if_pos hloop] at hhead'
        rw [append_assoc] at hrest
        exact (hhead'.unique hhead hrest).2.2
      · simp_all
    obtain ⟨more, rfl, -⟩ := hframes.of_append runs_message_ne_nil (hsame ▸ hbody)
    exact prefix_append _ _

/-- What is passed on along such a run is the beginning of the packets of the stream, however it was delivered; and the
    next step loses bytes if it drops a read that has taken some. -/
theorem independent_of_schedule (hrun : run step (start P) events = some s)
    (halong : Along step Undropped (start P) events) : s.Framed ∧
    (∀ head messages body, (if P.inLoop then Runs P.header.toIo head () [] else head = []) →
      Frames P.message.toIo messages body → s.delivered <+: head ++ body → s.passed <+: P.packets messages) ∧
    ∀ e s', s.step e = some s' → ¬Undropped s e → ¬s'.Framed := by
  obtain ⟨hF, hJ, hpassed⟩ := framed_run hrun halong
  refine ⟨hF, fun head messages body hhead hbody hpre => ?_, fun e s' h hdrop hF' =>
    hdrop ((framed_step_iff hJ hF h).mp hF')⟩
  exact hpassed.isPrefix.trans (P.packets_prefix (hF.prefix_of_frames hJ hhead hbody hpre))

end State

end Xhttp.Lib.SelectLoop
