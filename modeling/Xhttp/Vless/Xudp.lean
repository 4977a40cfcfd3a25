import Xhttp.Vless.Handshake

/- XUDP frames (`src/vless.rs`): datagrams of many sessions on one stream, each
   frame with its own destination. -/
namespace Xhttp.Vless
open Xhttp.Lib List Checked

structure XudpFrame where
  session : UInt16
  status : UInt8
  destination : Option Destination
  payload : Option Bytes
  deriving DecidableEq, Repr

/-! ## Reading -/

def parseIpv4Bytes (port : UInt16) (bytes : Bytes) : Except Failure Destination := do
  let a ← index bytes 1
  let b ← index bytes 2
  let c ← index bytes 3
  let d ← index bytes 4
  pure (.ip (.v4 #v[a, b, c, d]) port)

def parseDomainBytes (port : UInt16) (bytes : Bytes) : Except Failure Destination := do
  let length ← index bytes 1
  let name ← slice bytes 2 (2 + length.toNat)
  let name ← okOr (Str.fromUtf8 name) .utf8
  pure (.domain name port)

def parseIpv6Bytes (port : UInt16) (bytes : Bytes) : Except Failure Destination := do
  let address ← slice bytes 1 17
  let address ← copyFromSlice 16 address
  pure (.ip (.v6 address) port)

/-- The guard of the domain arm, `bytes.len() >= 2 && bytes.len() >= bytes[1] + 2`. -/
def domainGuard (bytes : Bytes) : Except Failure Bool :=
  if 2 ≤ bytes.length then do
    let length ← index bytes 1
    pure (decide (length.toNat + 2 ≤ bytes.length))
  else pure false

/-- The arms of `match bytes[0]`; one whose guard fails falls through to the last. -/
def parseAddressBytes (port : UInt16) (bytes : Bytes) (type : UInt8) : Except Failure Destination :=
  let invalid := .error (.message "invalid XUDP destination")
  match type with
  | 1 => if 5 ≤ bytes.length then parseIpv4Bytes port bytes else invalid
  | 2 => do if ← domainGuard bytes then parseDomainBytes port bytes else invalid
  | 3 => if 17 ≤ bytes.length then parseIpv6Bytes port bytes else invalid
  | _ => invalid

def parseDestinationBytes (bytes : Bytes) : Except Failure Destination :=
  if bytes.length < 3 then .error (.message "truncated XUDP destination")
  else do
    let hi ← index bytes 0
    let lo ← index bytes 1
    let bytes ← sliceFrom bytes 2
    let type ← index bytes 0
    parseAddressBytes (ofBeU16 hi lo) bytes type

def readFrameDestination (headerLength : Nat) : Io Failure (Option Destination) :=
  if 4 < headerLength then do
    let remaining ← Io.readExact (headerLength - 4)
    Io.bailIf (remaining.head? ≠ some 2) (.message "XUDP frame is not UDP")
    let address ← Io.lift (sliceFrom remaining 1)
    let destination ← Io.lift (parseDestinationBytes address)
    pure (some destination)
  else pure none

def readFramePayload (option : UInt8) : Io Failure (Option Bytes) :=
  if option &&& 1 ≠ 0 then do
    let length ← Io.readU16
    let payload ← Io.readExact length.toNat
    pure (some payload)
  else pure none

def readXudpFrame : Io Failure XudpFrame := do
  let headerLength ← Io.readU16
  Io.bailIf (headerLength.toNat < 4) (.message "invalid XUDP frame length")
  let session ← Io.readU16
  let status ← Io.readU8
  let option ← Io.readU8
  let destination ← readFrameDestination headerLength.toNat
  let payload ← readFramePayload option
  Io.bailIf (option &&& 2 ≠ 0) (.message "remote XUDP session reported an error")
  pure { session, status, destination, payload }

/-- `read_xudp_frame` again and again: the frames, and the failure that ended the
    reading (none if `fuel` reads all succeeded). -/
def readXudpFrames : Nat → Stream → List XudpFrame × Option (Fault Failure) × Stream
  | 0, s => ([], none, s)
  | fuel + 1, s =>
    match readXudpFrame s with
    | (.ok frame, s') =>
      let rest := readXudpFrames fuel s'
      (frame :: rest.1, rest.2)
    | (.error e, s') => ([], some e, s')

/-! ## Writing -/

def encodeDestinationBytes (output : Bytes) (destination : Destination) : Except Failure Bytes := do
  let bytes ← encodeDestination "XUDP domain too long" destination
  pure (output ++ bytes)

def writeXudpFrame (session : UInt16) (status : UInt8) (destination : Destination) (payload : Bytes) :
    Io Failure Unit := do
  let address ← Io.lift (encodeDestinationBytes [] destination)
  let headerLength ← Io.lift (tryIntoU16 (5 + address.length) (.message "XUDP header too large"))
  Io.writeU16 headerLength
  Io.writeU16 session
  Io.writeAll [status, 1, 2]
  Io.writeAll address
  let length ← Io.lift (tryIntoU16 payload.length (.message "XUDP payload too large"))
  Io.writeU16 length
  Io.writeAll payload

/-! ## Indexing -/

theorem parseIpv4Bytes_ne_panic (port : UInt16) {bytes : Bytes} (h : 5 ≤ bytes.length) :
    parseIpv4Bytes port bytes ≠ .error .panic := by
  unfold parseIpv4Bytes
  rw [index_of_lt (show 1 < bytes.length by omega), index_of_lt (show 2 < bytes.length by omega),
    index_of_lt (show 3 < bytes.length by omega),
    index_of_lt (show 4 < bytes.length by omega)]
  exact nofun

theorem parseIpv6Bytes_ne_panic (port : UInt16) {bytes : Bytes} (h : 17 ≤ bytes.length) :
    parseIpv6Bytes port bytes ≠ .error .panic := by
  unfold parseIpv6Bytes
  rw [slice_of_le (by omega) h]
  show (copyFromSlice 16 ((bytes.drop 1).take 16) >>= _) ≠ _
  rw [copyFromSlice_of_length (by simp; omega)]
  intro h
  cases h

theorem domainGuard_cases (bytes : Bytes) : domainGuard bytes = .ok false ∨
      ∃ length, domainGuard bytes = .ok true ∧ index bytes 1 = .ok length ∧
        2 + length.toNat ≤ bytes.length := by
  unfold domainGuard
  split
  · next h =>
    rw [index_of_lt (show 1 < bytes.length by omega)]
    by_cases hfit : bytes[1].toNat + 2 ≤ bytes.length
    · right
      exact ⟨bytes[1], by simp [hfit], rfl, by omega⟩
    · simp [hfit]
  · exact Or.inl rfl

theorem parseAddressBytes_ne_panic (port : UInt16) (bytes : Bytes) (type : UInt8) :
    parseAddressBytes port bytes type ≠ .error .panic := by
  unfold parseAddressBytes
  split
  · split
    · next h => exact parseIpv4Bytes_ne_panic port h
    · exact nofun
  · rcases domainGuard_cases bytes with h | ⟨length, h, hindex, hfit⟩
    · -- the guard fails and the match falls through
      rw [h]
      exact nofun
    · -- the guard is the bound of the slice
      rw [h]
      show parseDomainBytes port bytes ≠ _
      unfold parseDomainBytes
      rw [hindex]
      show (slice bytes 2 (2 + length.toNat) >>= _) ≠ _
      rw [slice_of_le (by omega) hfit]
      show (okOr (Str.fromUtf8 _) .utf8 >>= _) ≠ _
      exact bind_ne_panic (okOr_ne_panic _ nofun) fun name => nofun
  · split
    · next h => exact parseIpv6Bytes_ne_panic port h
    · exact nofun
  · exact nofun

theorem parseDestinationBytes_ne_panic (bytes : Bytes) : parseDestinationBytes bytes ≠ .error .panic := by
  unfold parseDestinationBytes
  split
  · exact nofun
  · next h =>
    have hdrop : 0 < (bytes.drop 2).length := by simp; omega
    rw [index_of_lt (show 0 < bytes.length by omega), index_of_lt (show 1 < bytes.length by omega),
      sliceFrom_of_le (show 2 ≤ bytes.length by omega)]
    show (index (bytes.drop 2) 0 >>= _) ≠ _
    rw [index_of_lt hdrop]
    exact parseAddressBytes_ne_panic _ _ _

theorem readFrameDestination_safe (headerLength : Nat) : Safe (readFrameDestination headerLength) := by
  unfold readFrameDestination
  split
  · apply Safe.bind (Safe.readExact _)
    intro remaining
    apply Safe.bailIf_bind
    intro hfirst
    -- the bytes behind the network byte start inside the buffer
    have hpos : 1 ≤ remaining.length := by
      cases remaining with
      | nil => simp at hfirst
      | cons b rest => simp
    grind [Safe.bind, Safe.lift, sliceFrom_ne_panic, parseDestinationBytes_ne_panic, Safe.pure]
  · exact Safe.pure none

theorem readXudpFrame_safe : Safe readXudpFrame := by
  apply Safe.bind Safe.readU16
  intro headerLength
  apply Safe.bailIf_bind
  intro _
  apply Safe.bind Safe.readU16
  intro session
  apply Safe.bind Safe.readU8
  intro status
  apply Safe.bind Safe.readU8
  intro option
  apply Safe.bind (readFrameDestination_safe _)
  grind [Safe.bind, readFramePayload, Safe.readU16, Safe.readExact, Safe.pure, Safe.bailIf_bind]

/-! ## Consumption -/

/-- The bytes behind the header: nothing, or a length and the payload. -/
def trailerLength : Option Bytes → Nat
  | some payload => 2 + payload.length
  | none => 0

theorem readFrameDestination_consumes {n : Nat} {s s' : Stream} {d : Option Destination}
    (h : readFrameDestination n s = (.ok d, s')) : ∃ bs, s = ⟨bs ++ s'.input, s'.output⟩ ∧ bs.length = n - 4 := by
  unfold readFrameDestination at h
  split at h
  · obtain ⟨remaining, s1, h1, h⟩ := Io.bind_ok_iff.mp h
    simp only [Io.bind_ok_iff] at h
    obtain ⟨_, s2, h2, address, s3, h3, destination, s4, h4, h⟩ := h
    have e : s1 = s' := by
      rw [(Io.bailIf_ok_iff.mp h2).2, (Io.lift_ok_iff.mp h3).2, (Io.lift_ok_iff.mp h4).2, (Io.pure_ok_iff.mp h).2]
    obtain ⟨hlen, hs⟩ := Io.readExact_ok_iff.mp h1
    exact ⟨remaining, e ▸ hs, hlen⟩
  · next hn =>
    have e := (Io.pure_ok_iff.mp h).2
    exact ⟨[], e, by simp only [length_nil]; omega⟩

theorem readFramePayload_consumes {option : UInt8} {s s' : Stream} {payload : Option Bytes}
    (h : readFramePayload option s = (.ok payload, s')) : ∃ bs, s = ⟨bs ++ s'.input, s'.output⟩ ∧
      bs.length = trailerLength payload := by
  unfold readFramePayload at h
  split at h
  · grind [Io.bind_ok_iff, Io.pure_ok_iff, Io.readU16_ok_iff, Io.readExact_ok_iff, length_cons, trailerLength]
  · obtain ⟨rfl, rfl⟩ := Io.pure_ok_iff.mp h
    exact ⟨[], rfl, rfl⟩

/-- A frame takes its two length bytes, the header they announce, and its payload. -/
theorem readXudpFrame_consumes {s s' : Stream} {frame : XudpFrame} (h : readXudpFrame s = (.ok frame, s')) :
    ∃ hi lo bs, s = ⟨hi :: lo :: bs ++ s'.input, s'.output⟩ ∧
      bs.length = (ofBeU16 hi lo).toNat + trailerLength frame.payload := by
  simp only [readXudpFrame, Io.bind_ok_iff] at h
  obtain ⟨headerLength, s1, h1, _, s2, h2, session, s3, h3, status, s4, h4, option, s5, h5,
    destination, s6, h6, payload, s7, h7, _, s8, h8, h⟩ := h
  obtain ⟨rfl, rfl⟩ := Io.pure_ok_iff.mp h
  obtain ⟨hi, lo, rfl, e1⟩ := Io.readU16_ok_iff.mp h1
  obtain ⟨hfour, e2⟩ := Io.bailIf_ok_iff.mp h2
  obtain ⟨a, b, -, e3⟩ := Io.readU16_ok_iff.mp h3
  have e4 := Io.readU8_ok_iff.mp h4
  have e5 := Io.readU8_ok_iff.mp h5
  obtain ⟨header, e6, hheader⟩ := readFrameDestination_consumes h6
  obtain ⟨body, e7, hbody⟩ := readFramePayload_consumes h7
  have e8 := (Io.bailIf_ok_iff.mp h8).2
  -- the streams in between are put together backwards, from the last read to the first
  refine ⟨hi, lo, [a, b, status, option] ++ header ++ body, ?_, ?_⟩
  · rw [e1, e2, e3, e4, e5, e6, e7, e8]
    simp
  grind

/-! ## Round trip -/

/-- What `write_xudp_frame` is called with, within the limits of the format. -/
structure Outgoing where
  session : UInt16
  status : UInt8
  destination : Destination
  payload : Bytes
  fits : destination.Fits
  small : payload.length ≤ 65535

def Outgoing.write (f : Outgoing) : Io Failure Unit :=
  writeXudpFrame f.session f.status f.destination f.payload

/-- The frame as `read_xudp_frame` is to return it. -/
def Outgoing.received (f : Outgoing) : XudpFrame :=
  { session := f.session, status := f.status, destination := some f.destination,
    payload := some f.payload }

def Outgoing.layout (f : Outgoing) : Bytes :=
  beU16 (UInt16.ofNat (5 + f.destination.layout.length)) ++ (beU16 f.session ++ ([f.status, 1] ++
    (2 :: f.destination.layout ++ (beU16 (UInt16.ofNat f.payload.length) ++ f.payload))))

/-- `write_xudp_frame` for each frame in turn. -/
def writeXudpFrames : List Outgoing → Io Failure Unit
  | [] => pure ()
  | f :: fs => do
    f.write
    writeXudpFrames fs

theorem layout_length_le {destination : Destination} (h : destination.Fits) : destination.layout.length ≤ 259 := by
  cases destination with
  | ip addr port => cases addr <;> simp [Destination.layout]
  | domain name port =>
    simp only [Destination.Fits] at h
    simp only [Destination.layout, length_append, beU16_length, length_cons, Str.asBytes_length]
    omega

theorem parseDestinationBytes_cons (port : UInt16) (type : UInt8) (rest : Bytes) :
    parseDestinationBytes (beU16 port ++ type :: rest) = parseAddressBytes port (type :: rest) type := by
  have hlen : ¬ (beU16 port ++ type :: rest).length < 3 := by
    simp only [length_append, beU16_length, length_cons]
    omega
  have hdrop : (beU16 port ++ type :: rest).drop 2 = type :: rest := rfl
  rw [parseDestinationBytes, if_neg hlen, sliceFrom_of_le (by simp), hdrop]
  show parseAddressBytes (ofBeU16 _ _) (type :: rest) type = _
  rw [ofBeU16_beU16]

theorem parseDestinationBytes_layout {destination : Destination} (h : destination.Fits) :
    parseDestinationBytes destination.layout = .ok destination := by
  cases destination with
  | ip addr port =>
    cases addr with
    | v4 octets =>
      rw [Destination.layout, parseDestinationBytes_cons]
      obtain ⟨⟨l⟩, hl⟩ := octets
      obtain ⟨a, b, c, d, rfl⟩ := length_eq_four.mp hl
      rfl
    | v6 octets =>
      rw [Destination.layout, parseDestinationBytes_cons]
      have hlen : 17 ≤ (3 :: octets.toList).length := by simp
      show (if 17 ≤ (3 :: octets.toList).length then parseIpv6Bytes port (3 :: octets.toList) else _) = _
      rw [if_pos hlen, parseIpv6Bytes, slice_of_le (by omega) hlen]
      show (copyFromSlice 16 (octets.toList.take 16) >>= _) = _
      rw [take_of_length_le (by simp), copyFromSlice_toList]
      rfl
  | domain name port =>
    have hlen := toNat_lengthByte h
    rw [Destination.layout, parseDestinationBytes_cons]
    have hguard : domainGuard (2 :: UInt8.ofNat name.len :: name.asBytes) = .ok true := by
      show Except.ok (decide ((UInt8.ofNat name.len).toNat + 2 ≤ _)) = _
      rw [hlen]
      simp
    show (domainGuard _ >>= _) = _
    rw [hguard]
    show (slice _ 2 (2 + (UInt8.ofNat name.len).toNat) >>= _) = _
    rw [hlen, slice_of_le (by omega) (by simp only [length_cons]; omega)]
    show (okOr (Str.fromUtf8 (name.asBytes.take (2 + name.asBytes.length - 2))) .utf8 >>= _) = _
    rw [Nat.add_sub_cancel_left, take_length, Str.fromUtf8_asBytes]
    rfl

theorem readFrameDestination_runs {destination : Destination} (h : destination.Fits) :
    Runs (readFrameDestination (5 + destination.layout.length)) (2 :: destination.layout) (some destination) [] := by
  have hsize : 5 + destination.layout.length - 4 = (2 :: destination.layout).length := by
    rw [length_cons]
    omega
  have hread : Runs (Io.readExact (5 + destination.layout.length - 4) : Io Failure Bytes)
      (2 :: destination.layout) (2 :: destination.layout) [] := by
    rw [hsize]
    exact Runs.readExact _
  rw [readFrameDestination, if_pos (by omega)]
  apply hread.last_bind
  apply (Runs.lift (sliceFrom_of_le (by simp))).pass_bind
  exact (Runs.lift (parseDestinationBytes_layout h)).last_bind (Runs.pure _)

theorem readFramePayload_runs {payload : Bytes} (h : payload.length ≤ 65535) :
    Runs (readFramePayload 1) (beU16 (UInt16.ofNat payload.length) ++ payload) (some payload) [] := by
  have hlen : (UInt16.ofNat payload.length).toNat = payload.length := by
    rw [UInt16.toNat_ofNat']
    omega
  have hread : Runs (Io.readExact (UInt16.ofNat payload.length).toNat : Io Failure Bytes)
      payload payload [] := by
    rw [hlen]
    exact Runs.readExact _
  exact (Runs.readU16 _).read_bind (hread.last_bind (Runs.pure _))

theorem readXudpFrame_runs (f : Outgoing) : Runs readXudpFrame f.layout f.received [] := by
  have hle := layout_length_le f.fits
  have hlen : (UInt16.ofNat (5 + f.destination.layout.length)).toNat =
      5 + f.destination.layout.length := by
    rw [UInt16.toNat_ofNat']
    omega
  apply (Runs.readU16 _).read_bind
  rw [hlen]
  apply (Runs.bailIf (by omega)).pass_bind
  apply (Runs.readU16 f.session).read_bind
  apply (readFrameDestination_runs f.fits).read_bind
  apply (readFramePayload_runs f.small).last_bind
  exact Runs.pure _

theorem writeXudpFrame_runs (f : Outgoing) : Runs f.write [] () f.layout := by
  have hle := layout_length_le f.fits
  have hsmall := f.small
  have haddress : encodeDestinationBytes [] f.destination = .ok f.destination.layout := by
    rw [encodeDestinationBytes, encodeDestination_of_fits f.fits]
    rfl
  -- status, option and network are one write here and belong to different reads there
  apply (Runs.lift haddress).pass_bind
  apply (Runs.lift (tryIntoU16_of_lt (by omega) _)).pass_bind
  apply (Runs.writeAll _).bind
  apply (Runs.writeAll _).bind
  apply (Runs.writeAll _).bind
  apply (Runs.writeAll _).bind
  apply (Runs.lift (tryIntoU16_of_lt (by omega) _)).pass_bind
  apply (Runs.writeAll _).bind
  exact Runs.writeAll _

def layouts (fs : List Outgoing) : Bytes := fs.flatMap Outgoing.layout

theorem writeXudpFrames_runs (fs : List Outgoing) : Runs (writeXudpFrames fs) [] () (layouts fs) := by
  induction fs with
  | nil => exact Runs.pure ()
  | cons f fs ih =>
    exact (writeXudpFrame_runs f).bind ih

theorem readXudpFrames_layouts (fs : List Outgoing) (fuel : Nat) (h : fs.length < fuel) (out : Bytes) :
    readXudpFrames fuel ⟨layouts fs, out⟩ = (fs.map Outgoing.received, some .eof, ⟨[], out⟩) := by
  induction fs generalizing fuel with
  | nil =>
    obtain ⟨fuel, rfl⟩ : ∃ n, fuel = n + 1 := ⟨fuel - 1, by omega⟩
    rfl
  | cons f fs ih =>
    obtain ⟨fuel, rfl⟩ : ∃ n, fuel = n + 1 := ⟨fuel - 1, by omega⟩
    have hfirst : readXudpFrame ⟨layouts (f :: fs), out⟩ = (.ok f.received, ⟨layouts fs, out⟩) := by
      have := readXudpFrame_runs f (layouts fs) out
      rwa [append_nil] at this
    have hrest := ih fuel (by rw [length_cons] at h; omega)
    simp only [readXudpFrames, hfirst, hrest, map_cons]

/-- **XUDP frames.** Any list of frames within the limits of the format is written
    without failure, and reading what was written frame by frame returns the list and
    then meets the end of the input. On arbitrary bytes a frame is read only with its
    length bytes, its whole header and its whole payload consumed and nothing written,
    and no failure is an index out of bounds. -/
theorem xudp_frames_round_trip :
    (∀ fs : List Outgoing, ∃ bytes, Runs (writeXudpFrames fs) [] () bytes ∧
      ∀ fuel out, fs.length < fuel →
        readXudpFrames fuel ⟨bytes, out⟩ = (fs.map Outgoing.received, some .eof, ⟨[], out⟩)) ∧
    (∀ s s' frame, readXudpFrame s = (.ok frame, s') →
      ∃ hi lo bs, s = ⟨hi :: lo :: bs ++ s'.input, s'.output⟩ ∧
        bs.length = (ofBeU16 hi lo).toNat + trailerLength frame.payload) ∧
    (∀ s, (readXudpFrame s).1 ≠ .error (.bail .panic)) ∧
    (∀ bytes, parseDestinationBytes bytes ≠ .error .panic) := by
  refine ⟨?_, fun s s' frame => readXudpFrame_consumes, readXudpFrame_safe, parseDestinationBytes_ne_panic⟩
  grind [layouts, writeXudpFrames_runs, readXudpFrames_layouts]

def dnsQuery : Outgoing :=
  { session := 1, status := 1, destination := .domain "dns" 53, payload := [0xAB, 0xCD],
    fits := (by decide : Str.len "dns" ≤ 255), small := by decide }

def emptyDatagram : Outgoing :=
  { session := 0xFFFF, status := 2, destination := .ip (.v4 #v[127, 0, 0, 1]) 443, payload := [],
    fits := trivial, small := by decide }

/-- Two frames there and back, and a bare header of four bytes in front of another
    byte. -/
theorem xudp_frames_round_trip_two :
    (∃ bytes, Runs (writeXudpFrames [dnsQuery, emptyDatagram]) [] () bytes ∧
      readXudpFrames 3 ⟨bytes, []⟩ =
        ([dnsQuery.received, emptyDatagram.received], some .eof, ⟨[], []⟩)) ∧
    ∃ hi lo bs, (⟨[0, 4, 0, 7, 2, 0, 9], []⟩ : Stream) = ⟨hi :: lo :: bs ++ [9], []⟩ ∧
      bs.length = (ofBeU16 hi lo).toNat + 0 := by
  refine ⟨?_, xudp_frames_round_trip.2.1 ⟨[0, 4, 0, 7, 2, 0, 9], []⟩ ⟨[9], []⟩
    ⟨7, 2, none, none⟩ rfl⟩
  obtain ⟨bytes, hw, hr⟩ := xudp_frames_round_trip.1 [dnsQuery, emptyDatagram]
  exact ⟨bytes, hw, hr 3 [] (by decide)⟩

end Xhttp.Vless
