import Xhttp.Lib.Checked

/- The TTL fields of a DNS message (`src/dns/message.rs`): where they are
   (`ttl_offsets`), and how a cached response is aged (`age_response_ttls`).

   What is proved (`ttlOffsets_overwriteTtls`): the new TTLs do not disturb the
   reading of the message. An aged response has the records of the original, in the
   same places and with nothing but their TTLs changed, so that what a client reads
   in it is what was written there.

   Positions are `usize` in the source and cannot overflow: they stay below the
   length of the message by more than the largest record. -/
namespace Xhttp.Dns
open Xhttp.Lib List Checked

/-! ## Reading -/

/-- `u16::from_be_bytes([m[i], m[i + 1]])`. -/
def u16At (m : Bytes) (i : Nat) : Except Failure UInt16 := do
  let hi ← index m i
  let lo ← index m (i + 1)
  pure (ofBeU16 hi lo)

/-- `u32::from_be_bytes([m[i], m[i + 1], m[i + 2], m[i + 3]])`. -/
def u32At (m : Bytes) (i : Nat) : Except Failure UInt32 := do
  let a ← index m i
  let b ← index m (i + 1)
  let c ← index m (i + 2)
  let d ← index m (i + 3)
  pure (ofBeU32 a b c d)

def dnsId : Bytes → Except Failure UInt16
  | hi :: lo :: _ => .ok (ofBeU16 hi lo)
  | _ => .error (.message "truncated DNS message")

theorem dnsId_of_take {m : Bytes} {n : Nat} (h : 2 ≤ (m.take n).length) : dnsId (m.take n) = dnsId m := by
  rw [length_take] at h
  obtain ⟨n, rfl⟩ : ∃ k, n = k + 2 := ⟨n - 2, by omega⟩
  match m with
  | hi :: lo :: m => rfl
  | [] | [_] =>
    simp only [length_cons, length_nil] at h
    omega

/-- The loop of `skip_name`, with the number of labels that may still follow. -/
def skipLabels (b : Bytes) : Nat → Nat → Except Failure Nat
  | left, p =>
    match b[p]? with
    | none => .error (.message "truncated DNS name")
    | some n =>
      if n = 0 then .ok (p + 1)
      else if n &&& 0xc0 = 0xc0 then
        if b.length ≤ p + 1 then .error (.message "truncated DNS pointer") else .ok (p + 2)
      else if n &&& 0xc0 ≠ 0 ∨ 63 < n then .error (.message "invalid DNS label")
      else if b.length < p + 1 + n.toNat then .error (.message "truncated DNS label")
      else match left with
        | 0 => .error (.message "invalid DNS name")
        | left + 1 => skipLabels b left (p + 1 + n.toNat)

def skipName (b : Bytes) (p : Nat) : Except Failure Nat := skipLabels b 127 p

def skipQuestions (m : Bytes) : Nat → Nat → Except Failure Nat
  | 0, p => .ok p
  | questions + 1, p => do
    let p ← skipName m p
    bailIf (m.length < p + 4) "truncated DNS question"
    skipQuestions m questions (p + 4)

/-- An element of the result of `ttl_offsets`. -/
structure TtlField where
  offset : Nat
  recordType : UInt16
  ttl : UInt32
  deriving DecidableEq, Repr

def recordFields (m : Bytes) : Nat → Nat → Except Failure (List TtlField)
  | 0, _ => .ok []
  | records + 1, p => do
    let p ← skipName m p
    bailIf (m.length < p + 10) "truncated DNS record"
    let recordType ← u16At m p
    let ttl ← u32At m (p + 4)
    let length ← u16At m (p + 8)
    bailIf (m.length < p + 10 + length.toNat) "truncated DNS record data"
    let fields ← recordFields m records (p + 10 + length.toNat)
    pure ({ offset := p + 4, recordType, ttl } :: fields)

def ttlOffsets (message : Bytes) : Except Failure (List TtlField) := do
  bailIf (message.length < 12) "truncated DNS message"
  let questions ← u16At message 4
  let answers ← u16At message 6
  let authorities ← u16At message 8
  let additionals ← u16At message 10
  let p ← skipQuestions message questions.toNat 12
  recordFields message (answers.toNat + authorities.toNat + additionals.toNat) p

/-! ## Ageing -/

def saturatingSub (a b : UInt32) : UInt32 := if b ≤ a then a - b else 0

/-- The body of the loops that write TTLs: the OPT pseudo-record (type 41) keeps the
    flags it has in that place. -/
def overwriteTtl (g : UInt32 → UInt32) (response : Bytes) (field : TtlField) : Bytes :=
  if field.recordType ≠ 41 then overwrite response field.offset (beU32 (g field.ttl)) else response

/-- What `age_response_ttls` and `rewrite_response_ttls` share. -/
def overwriteTtls (g : UInt32 → UInt32) (response : Bytes) : Bytes :=
  match ttlOffsets response with
  | .error _ => response
  | .ok fields => fields.foldl (overwriteTtl g) response

def ageResponseTtls (response : Bytes) (elapsed : UInt32) : Bytes :=
  overwriteTtls (fun ttl => saturatingSub ttl elapsed) response

/-- The field of a record after its TTL was written. -/
def TtlField.update (g : UInt32 → UInt32) (field : TtlField) : TtlField :=
  if field.recordType ≠ 41 then { field with ttl := g field.ttl } else field

theorem saturatingSub_toNat (a b : UInt32) : (saturatingSub a b).toNat = a.toNat - b.toNat := by
  unfold saturatingSub
  split
  · next h => exact UInt32.toNat_sub_of_le _ _ h
  grind [UInt32.le_iff_toNat_le, UInt32.toNat_zero]

@[simp] theorem TtlField.update_offset (g : UInt32 → UInt32) (f : TtlField) : (f.update g).offset = f.offset := by
  unfold TtlField.update
  split <;> rfl

@[simp] theorem TtlField.update_recordType (g : UInt32 → UInt32) (f : TtlField) :
    (f.update g).recordType = f.recordType := by
  unfold TtlField.update
  split <;> rfl

/-! ## Messages that differ in TTLs only -/

section
variable {m m' : Bytes} {i questions : Nat} {b : Bytes} {f : TtlField}

theorem index_congr (h : m'[i]? = m[i]?) : index m' i = index m i := by
  rw [index, index, h]

theorem u16At_congr (h : ∀ j, i ≤ j → j < i + 2 → m'[j]? = m[j]?) : u16At m' i = u16At m i := by
  grind [u16At, index_congr]

theorem u32At_congr (h : ∀ j, i ≤ j → j < i + 4 → m'[j]? = m[j]?) : u32At m' i = u32At m i := by
  grind [u32At, index_congr]

theorem u32At_ok_of_le (h : i + 4 ≤ m.length) : ∃ n, u32At m i = .ok n := by
  unfold u32At
  rw [index_of_lt (show i < m.length by omega), index_of_lt (show i + 1 < m.length by omega),
    index_of_lt (show i + 2 < m.length by omega), index_of_lt (show i + 3 < m.length by omega)]
  exact ⟨_, rfl⟩

theorem skipLabels_ok {left p q : Nat} (h : skipLabels b left p = .ok q) : ∃ n, b[p]? = some n ∧
      ((n = 0 ∧ q = p + 1) ∨ (n ≠ 0 ∧ n &&& 0xc0 = 0xc0 ∧ p + 1 < b.length ∧ q = p + 2) ∨
        (n ≠ 0 ∧ n &&& 0xc0 ≠ 0xc0 ∧ ¬ (n &&& 0xc0 ≠ 0 ∨ 63 < n) ∧ p + 1 + n.toNat ≤ b.length ∧
          ∃ less, left = less + 1 ∧ skipLabels b less (p + 1 + n.toNat) = .ok q)) := by
  unfold skipLabels at h
  split at h
  · cases h
  · next n hn =>
    refine ⟨n, hn, ?_⟩
    split at h
    · next hzero => cases h; exact Or.inl ⟨hzero, rfl⟩
    · next hzero =>
      split at h
      · grind
      grind

theorem skipLabels_lt {left : Nat} : ∀ {p q : Nat}, skipLabels b left p = .ok q → p < q := by
  induction left with
  | zero | succ left ih =>
    grind [skipLabels_ok]

theorem skipLabels_congr (hlen : m'.length = m.length) {left : Nat} : ∀ {p q : Nat},
    skipLabels m left p = .ok q → (∀ i, p ≤ i → i < q → m'[i]? = m[i]?) →
      skipLabels m' left p = .ok q := by
  induction left with
  | zero =>
    intro p q h hagree
    have hp : m'[p]? = m[p]? := hagree p (Nat.le_refl p) (skipLabels_lt h)
    unfold skipLabels at h ⊢
    rw [hp, hlen]
    exact h
  | succ left ih =>
    intro p q h hagree
    have hp : m'[p]? = m[p]? := hagree p (Nat.le_refl p) (skipLabels_lt h)
    obtain ⟨n, hn, ⟨hzero, rfl⟩ | ⟨hzero, hptr, hend, rfl⟩ |
      ⟨hzero, hptr, hlabel, hend, less, hless, hrec⟩⟩ := skipLabels_ok h
    · rw [skipLabels, hp, hn]
      simp [hzero]
    · rw [skipLabels, hp, hn]
      simp [hzero, hptr, hlen, hend]
    · rw [skipLabels, hp, hn]
      grind

theorem skipQuestions_le : ∀ {p q : Nat}, skipQuestions m questions p = .ok q → p ≤ q := by
  induction questions with
  | zero =>
    intro p q h
    cases h
    exact Nat.le_refl p
  | succ questions ih =>
    intro p q h
    obtain ⟨p₁, hname, hrest⟩ := bind_ok_iff.mp h
    obtain ⟨-, -, hrec⟩ := bind_ok_iff.mp hrest
    have hlt := skipLabels_lt hname
    have hle := ih hrec
    omega

theorem skipQuestions_congr (hlen : m'.length = m.length) : ∀ {p q : Nat},
    skipQuestions m questions p = .ok q → (∀ i, p ≤ i → i < q → m'[i]? = m[i]?) →
      skipQuestions m' questions p = .ok q := by
  induction questions with
  | zero => exact fun h _ => h
  | succ questions ih =>
    intro p q h hagree
    obtain ⟨p₁, hname, hrest⟩ := bind_ok_iff.mp h
    obtain ⟨u, hcheck, hrec⟩ := bind_ok_iff.mp hrest
    have hlt := skipLabels_lt hname
    have hle := skipQuestions_le hrec
    have hname' : skipName m' p = .ok p₁ :=
      skipLabels_congr hlen hname fun i hi hq => hagree i hi (by omega)
    refine bind_ok_iff.mpr ⟨p₁, hname', bind_ok_iff.mpr ⟨u, ?_, ?_⟩⟩
    · rw [hlen]
      exact hcheck
    · exact ih hrec fun i hi hq => hagree i (by omega) hq

theorem recordFields_succ_ok {records p : Nat} {fields : List TtlField} : recordFields m (records + 1) p = .ok fields ↔
      ∃ q recordType ttl length rest, skipName m p = .ok q ∧ q + 10 ≤ m.length ∧
        u16At m q = .ok recordType ∧ u32At m (q + 4) = .ok ttl ∧ u16At m (q + 8) = .ok length ∧
        q + 10 + length.toNat ≤ m.length ∧
        recordFields m records (q + 10 + length.toNat) = .ok rest ∧
        fields = ⟨q + 4, recordType, ttl⟩ :: rest := by
  rw [recordFields]
  simp only [bind_ok_iff, bailIf_ok_iff, Nat.not_lt]
  constructor
  · rintro ⟨q, hname, u, hfixed, recordType, htype, ttl, httl, length, hlength, u', hdata, rest, hrest, hfields⟩
    exact ⟨q, recordType, ttl, length, rest, hname, hfixed, htype, httl, hlength, hdata, hrest,
      (Except.ok.inj hfields).symm⟩
  · rintro ⟨q, recordType, ttl, length, rest, hname, hfixed, htype, httl, hlength, hdata, hrest, rfl⟩
    exact ⟨q, hname, (), hfixed, recordType, htype, ttl, httl, length, hlength, (), hdata, rest, hrest, rfl⟩

/-- The fields found are in the message, behind the start and apart from each other. -/
theorem recordFields_placed {records : Nat} : ∀ {p : Nat} {fields : List TtlField},
    recordFields m records p = .ok fields →
      (∀ f ∈ fields, p + 4 ≤ f.offset ∧ f.offset + 4 ≤ m.length ∧ u32At m f.offset = .ok f.ttl) ∧
      fields.Pairwise fun f f' => f.offset + 4 ≤ f'.offset := by
  induction records with
  | zero =>
    intro p fields h
    cases h
    exact ⟨nofun, .nil⟩
  | succ records ih =>
    intro p fields h
    obtain ⟨q, recordType, ttl, length, rest, hname, hfixed, htype, httl, hlength, hdata, hrest, rfl⟩ :=
      recordFields_succ_ok.mp h
    have hlt := skipLabels_lt hname
    obtain ⟨hin, hapart⟩ := ih hrest
    refine ⟨?_, .cons ?_ hapart⟩
    · grind
    · intro f hf
      have hle := (hin f hf).1
      simp only
      omega

/-- Messages that agree outside the TTLs agree on the record here, its TTL apart, and outside the TTLs behind it. -/
theorem record_congr (hlen : m'.length = m.length) {records p q : Nat} {kind length : UInt16} {ttl : UInt32}
    {rest : List TtlField} (hname : skipName m p = .ok q) (hkind : u16At m q = .ok kind)
    (hlength : u16At m (q + 8) = .ok length) (hrest : recordFields m records (q + 10 + length.toNat) = .ok rest)
    (hagree : ∀ i, p ≤ i → (∀ f ∈ (⟨q + 4, kind, ttl⟩ : TtlField) :: rest, i < f.offset ∨ f.offset + 4 ≤ i) →
      m'[i]? = m[i]?) :
    skipName m' p = .ok q ∧ u16At m' q = .ok kind ∧ u16At m' (q + 8) = .ok length ∧
      (m'.drop (q + 10)).take length.toNat = (m.drop (q + 10)).take length.toNat ∧
      ∀ i, q + 10 + length.toNat ≤ i → (∀ f ∈ rest, i < f.offset ∨ f.offset + 4 ≤ i) → m'[i]? = m[i]? := by
  have hlt := skipLabels_lt hname
  have hhere : ∀ i, p ≤ i → i < q + 10 + length.toNat → (i < q + 4 ∨ q + 8 ≤ i) → m'[i]? = m[i]? := by
    intro i hi hnext hout
    refine hagree i hi (forall_mem_cons.mpr ⟨by omega, fun f hf => ?_⟩)
    have hle := ((recordFields_placed hrest).1 f hf).1
    omega
  refine ⟨skipLabels_congr hlen hname fun i hi hq => hhere i hi (by omega) (by omega), ?_, ?_,
    take_drop_congr fun i hi hi' => hhere i (by omega) (by omega) (by omega), fun i hi hout => ?_⟩
  · rw [u16At_congr fun j hj hj' => hhere j (by omega) (by omega) (by omega), hkind]
  · rw [u16At_congr fun j hj hj' => hhere j (by omega) (by omega) (by omega), hlength]
  · exact hagree i (by omega) (forall_mem_cons.mpr ⟨by simp only; omega, hout⟩)

theorem recordFields_congr (hlen : m'.length = m.length) (g : TtlField → TtlField)
    (hoffset : ∀ f, (g f).offset = f.offset) (htype : ∀ f, (g f).recordType = f.recordType)
    {records : Nat} : ∀ {p : Nat} {fields : List TtlField}, recordFields m records p = .ok fields →
      (∀ f ∈ fields, u32At m' f.offset = .ok (g f).ttl) →
      (∀ i, p ≤ i → (∀ f ∈ fields, i < f.offset ∨ f.offset + 4 ≤ i) → m'[i]? = m[i]?) →
      recordFields m' records p = .ok (fields.map g) := by
  induction records with
  | zero =>
    intro p fields h _ _
    cases h
    rfl
  | succ records ih =>
    intro p fields h hval hagree
    obtain ⟨q, recordType, ttl, length, rest, hname, hfixed, htype', httl, hlength, hdata, hrest, rfl⟩ :=
      recordFields_succ_ok.mp h
    obtain ⟨hname', hkind', hlength', -, hout⟩ := record_congr hlen hname htype' hlength hrest hagree
    have hnext := ih hrest (fun f hf => hval f (mem_cons_of_mem _ hf)) hout
    refine recordFields_succ_ok.mpr ⟨q, recordType, _, length, rest.map g, hname', by omega, hkind',
      hval _ mem_cons_self, hlength', by omega, hnext, ?_⟩
    cases hg : g ⟨q + 4, recordType, ttl⟩ with
    | mk offset recordType' ttl' =>
      have h₁ := hoffset ⟨q + 4, recordType, ttl⟩
      have h₂ := htype ⟨q + 4, recordType, ttl⟩
      simp_all

theorem ttlOffsets_ok_iff {fields : List TtlField} : ttlOffsets m = .ok fields ↔
      12 ≤ m.length ∧ ∃ questions answers authorities additionals p, u16At m 4 = .ok questions ∧
        u16At m 6 = .ok answers ∧ u16At m 8 = .ok authorities ∧ u16At m 10 = .ok additionals ∧
        skipQuestions m questions.toNat 12 = .ok p ∧
        recordFields m (answers.toNat + authorities.toNat + additionals.toNat) p = .ok fields := by
  simp [ttlOffsets, bind_ok_iff, bailIf_ok_iff]

theorem ttlOffsets_placed {fields : List TtlField} (h : ttlOffsets m = .ok fields) :
    (∀ f ∈ fields, f.offset + 4 ≤ m.length ∧ u32At m f.offset = .ok f.ttl) ∧
      fields.Pairwise fun f f' => f.offset + 4 ≤ f'.offset := by
  grind [ttlOffsets_ok_iff, recordFields_placed]

theorem ttlOffsets_congr (hlen : m'.length = m.length) (g : TtlField → TtlField)
    (hoffset : ∀ f, (g f).offset = f.offset) (htype : ∀ f, (g f).recordType = f.recordType)
    {fields : List TtlField} (h : ttlOffsets m = .ok fields) (hval : ∀ f ∈ fields, u32At m' f.offset = .ok (g f).ttl)
    (hagree : ∀ i, (∀ f ∈ fields, i < f.offset ∨ f.offset + 4 ≤ i) → m'[i]? = m[i]?) :
    ttlOffsets m' = .ok (fields.map g) := by
  obtain ⟨hlong, questions, answers, authorities, additionals, p, hq, han, hns, har, hp, hfields⟩ :=
    ttlOffsets_ok_iff.mp h
  have hle := skipQuestions_le hp
  have hin := (recordFields_placed hfields).1
  -- the header and the questions are in front of all records
  have hfront : ∀ i < p, m'[i]? = m[i]? := by
    intro i hi
    refine hagree i fun f hf => ?_
    have hf' := (hin f hf).1
    omega
  have hheader : ∀ i, i + 2 ≤ 12 → u16At m' i = u16At m i := fun i hi =>
    u16At_congr fun j _ hj => hfront j (by omega)
  refine ttlOffsets_ok_iff.mpr ⟨by omega, questions, answers, authorities, additionals, p, ?_, ?_, ?_, ?_, ?_, ?_⟩
  · rw [hheader 4 (by omega)]; exact hq
  · rw [hheader 6 (by omega)]; exact han
  · rw [hheader 8 (by omega)]; exact hns
  · rw [hheader 10 (by omega)]; exact har
  · exact skipQuestions_congr hlen hp fun i _ hi => hfront i hi
  grind [recordFields_congr]

/-! ## What is written -/

theorem u32At_overwrite (h : i + 4 ≤ m.length) (n : UInt32) : u32At (overwrite m i (beU32 n)) i = .ok n := by
  have hget : ∀ j, j < 4 → (overwrite m i (beU32 n))[i + j]? = (beU32 n)[j]? := fun j hj =>
    overwrite_get_in (by simpa using h) (by simpa using hj)
  have hindex : ∀ j b, j < 4 → (beU32 n)[j]? = some b →
      index (overwrite m i (beU32 n)) (i + j) = .ok b := by
    intro j b hj hb
    rw [index, hget j hj, hb]
  unfold u32At
  rw [hindex 1 _ (by omega) rfl, hindex 2 _ (by omega) rfl, hindex 3 _ (by omega) rfl,
    show index (overwrite m i (beU32 n)) i = .ok _ from hindex 0 _ (by omega) rfl]
  exact congrArg Except.ok (ofBeU32_beU32 n)

variable {g : UInt32 → UInt32}

theorem overwriteTtl_length (h : f.offset + 4 ≤ m.length) : (overwriteTtl g m f).length = m.length := by
  unfold overwriteTtl
  split
  · exact overwrite_length (by simpa using h)
  · rfl

theorem overwriteTtl_get (h : f.offset + 4 ≤ m.length)
    (hi : f.recordType ≠ 41 → i < f.offset ∨ f.offset + 4 ≤ i) : (overwriteTtl g m f)[i]? = m[i]? := by
  unfold overwriteTtl
  split
  · next hkind => exact overwrite_get_out (by simpa using h) (by simpa using hi hkind)
  · rfl

theorem foldl_overwriteTtl (fields : List TtlField) : ∀ {m : Bytes}, (∀ f ∈ fields, f.offset + 4 ≤ m.length) →
      (fields.foldl (overwriteTtl g) m).length = m.length ∧
      ∀ i, (∀ f ∈ fields, f.recordType ≠ 41 → i < f.offset ∨ f.offset + 4 ≤ i) →
        (fields.foldl (overwriteTtl g) m)[i]? = m[i]? := by
  induction fields with
  | nil => exact fun _ => ⟨rfl, fun _ _ => rfl⟩
  | cons f fields ih =>
    intro m hin
    have hf := hin f mem_cons_self
    have hlen : (overwriteTtl g m f).length = m.length := overwriteTtl_length hf
    grind [overwriteTtl, mem_cons_of_mem, overwriteTtl_get, mem_cons_self]

/-- Each field holds its new TTL: the later ones are written elsewhere. -/
theorem u32At_foldl_overwriteTtl (fields : List TtlField) : ∀ {m : Bytes},
    (∀ f ∈ fields, f.offset + 4 ≤ m.length ∧ u32At m f.offset = .ok f.ttl) →
      (fields.Pairwise fun f f' => f.offset + 4 ≤ f'.offset) →
      ∀ f ∈ fields, u32At (fields.foldl (overwriteTtl g) m) f.offset = .ok (f.update g).ttl := by
  induction fields with
  | nil => exact fun _ _ => nofun
  | cons f₀ fields ih =>
    intro m hin hapart f hf
    obtain ⟨hfirst, hrest⟩ := pairwise_cons.mp hapart
    obtain ⟨hlen₀, hval₀⟩ := hin f₀ mem_cons_self
    have hlen : (overwriteTtl g m f₀).length = m.length := overwriteTtl_length hlen₀
    have hin' : ∀ f ∈ fields, f.offset + 4 ≤ (overwriteTtl g m f₀).length := fun f hf => by
      rw [hlen]
      exact (hin f (mem_cons_of_mem _ hf)).1
    rcases mem_cons.mp hf with rfl | hf
    · have hkeep : u32At (fields.foldl (overwriteTtl g) (overwriteTtl g m f)) f.offset =
          u32At (overwriteTtl g m f) f.offset :=
        u32At_congr fun j hj hj' => (foldl_overwriteTtl fields hin').2 j fun f' hf' _ => by
          have hle := hfirst f' hf'
          omega
      grind [overwriteTtl, TtlField.update, u32At_overwrite]
    · refine ih (fun f' hf' => ⟨hin' f' hf', ?_⟩) hrest f hf
      have hle := hfirst f' hf'
      rw [u32At_congr fun j hj hj' => overwriteTtl_get hlen₀ fun _ => by omega]
      exact (hin f' (mem_cons_of_mem _ hf')).2

theorem overwriteTtls_length (g : UInt32 → UInt32) (m : Bytes) : (overwriteTtls g m).length = m.length := by
  unfold overwriteTtls
  split
  · rfl
  simp_all [foldl_overwriteTtl, ttlOffsets_placed]

/-- **Rewriting TTLs.** The records stay where they are, and exactly their TTLs change. -/
theorem ttlOffsets_overwriteTtls (g : UInt32 → UInt32) {fields : List TtlField} (h : ttlOffsets m = .ok fields) :
    ttlOffsets (overwriteTtls g m) = .ok (fields.map (TtlField.update g)) := by
  obtain ⟨hin, hapart⟩ := ttlOffsets_placed h
  grind [foldl_overwriteTtl, overwriteTtls, ttlOffsets_congr, TtlField.update_offset, TtlField.update_recordType,
    u32At_foldl_overwriteTtl]

end

end Xhttp.Dns
