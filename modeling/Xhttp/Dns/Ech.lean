import Xhttp.Dns.Query

/- The ECH config of an HTTPS record (`parse_https_ech` in `src/dns/message.rs`). The data of such a record
   is a priority, a target name and parameters, each a key and a value behind its length; key 5 is the ECH config.

   What is proved (`parse_https_ech`): a config is found exactly if it is the value of the first parameter with key
   5 in the first record of type 65 that has one, with complete parameters before it, and no bytes outside of the
   message are read. -/
namespace Xhttp.Dns
open Xhttp.Lib List Checked

/-- The loop over the parameters of a record, up to its end. -/
def echParameters (message : Bytes) (stop position : Nat) : Except Failure (Option Bytes) :=
  if _h : position < stop then do
    bailIf (message.length < position + 4) "truncated DNS HTTPS parameter"
    let key ← u16At message position
    let valueLength ← u16At message (position + 2)
    bailIf (stop < position + 4 + valueLength.toNat) "truncated DNS HTTPS parameter value"
    if key = 5 then
      bailIf (valueLength = 0) "empty ECH config in DNS HTTPS record"
      let config ← slice message (position + 4) (position + 4 + valueLength.toNat)
      pure (some config)
    else echParameters message stop (position + 4 + valueLength.toNat)
  else .ok none
termination_by stop - position

def echOf (message : Bytes) (fixed stop : Nat) : Except Failure (Option Bytes) := do
  bailIf (stop < fixed + 12) "truncated DNS HTTPS priority"
  let target ← skipName message (fixed + 12)
  bailIf (stop < target) "DNS HTTPS target exceeds record"
  echParameters message stop target

def echAnswers (message : Bytes) : Nat → Nat → Except Failure (Bytes × UInt32)
  | 0, _ => .error (.message "no ECH config found in DNS HTTPS records")
  | answers + 1, position => do
    let position ← skipName message position
    bailIf (message.length < position + 10) "truncated DNS HTTPS answer"
    let recordType ← u16At message position
    let ttl ← u32At message (position + 4)
    let length ← u16At message (position + 8)
    let stop := position + 10 + length.toNat
    bailIf (message.length < stop) "truncated DNS HTTPS record data"
    if recordType ≠ 65 then echAnswers message answers stop
    else
      match ← echOf message position stop with
      | some config => pure (config, ttl)
      | none => echAnswers message answers stop

/-- The loop over the questions has a message of its own here. -/
def httpsQuestion : Failure → Failure
  | .message "truncated DNS question" => .message "truncated DNS HTTPS question"
  | e => e

def parseHttpsEch (id : UInt16) (message : Bytes) : Except Failure (Bytes × UInt32) := do
  bailIf (message.length < 12) "invalid DNS HTTPS response"
  let messageId ← dnsId message
  bailIf (messageId ≠ id) "invalid DNS HTTPS response"
  let flags ← u16At message 2
  bailIf (flags &&& 0x8000 = 0 ∨ flags &&& 15 ≠ 0) ("DNS HTTPS error rcode " ++ toString (flags &&& 15).toNat)
  let questions ← u16At message 4
  let answers ← u16At message 6
  let position ← (skipQuestions message questions.toNat 12).mapError httpsQuestion
  echAnswers message answers.toNat position

/-! ## Parameters -/

/-- Parameters that follow each other from one position up to another, each with its key and the length of its value. -/
inductive Params (m : Bytes) : Nat → List (UInt16 × UInt16) → Nat → Prop
  | nil {p : Nat} : Params m p [] p
  | cons {p q : Nat} {key length : UInt16} {ps : List (UInt16 × UInt16)} :
      u16At m p = .ok key → u16At m (p + 2) = .ok length →
      Params m (p + 4 + length.toNat) ps q → Params m p ((key, length) :: ps) q

/-- The value of a parameter with key 5, not empty and complete within `stop`. -/
def EchValue (m : Bytes) (stop p : Nat) (config : Bytes) : Prop :=
  ∃ length, u16At m p = .ok 5 ∧ u16At m (p + 2) = .ok length ∧ length ≠ 0 ∧ p + 4 + length.toNat ≤ stop ∧
    config = (m.drop (p + 4)).take length.toNat

section
variable {m : Bytes} {p q stop : Nat} {ttl : UInt32}

theorem Params.le {ps : List (UInt16 × UInt16)} (h : Params m p ps q) : p ≤ q := by
  induction h with
  | nil => exact Nat.le_refl _
  | cons _ _ _ ih => omega

theorem echParameters_ok_iff (hstop : stop ≤ m.length) (hp : p ≤ stop) {r : Option Bytes} :
    echParameters m stop p = .ok r ↔ ∃ ps q, Params m p ps q ∧ (∀ x ∈ ps, x.1 ≠ 5) ∧
      match r with
      | none => q = stop
      | some config => EchValue m stop q config := by
  induction hn : stop - p using Nat.strong_induction_on generalizing p with
  | _ n ih =>
    rw [echParameters]
    by_cases hlt : p < stop
    · simp only [dif_pos hlt, bind_ok_iff, bailIf_ok_iff, Nat.not_lt]
      constructor
      · rintro ⟨-, -, key, hkey, length, hlength, -, hvalue, hrest⟩
        split at hrest
        · next hfive =>
          simp only [bind_ok_iff, bailIf_ok_iff] at hrest
          obtain ⟨-, hsome, config, hconfig, hr⟩ := hrest
          rw [slice_of_le (Nat.le_add_right _ _) (Nat.le_trans hvalue hstop), Nat.add_sub_cancel_left] at hconfig
          cases hr
          exact ⟨[], p, .nil, nofun, length, hfive ▸ hkey, hlength, hsome, hvalue, (Except.ok.inj hconfig).symm⟩
        · next hfive =>
          obtain ⟨ps, q, hps, hkeys, hend⟩ := (ih _ (by omega) hvalue rfl).mp hrest
          exact ⟨_ :: ps, q, .cons hkey hlength hps, forall_mem_cons.mpr ⟨hfive, hkeys⟩, hend⟩
      · rintro ⟨ps, q, hps, hkeys, hend⟩
        have hin : q ≤ stop := by
          cases r with
          | none => exact Nat.le_of_eq hend
          | some config =>
            obtain ⟨_, -, -, -, hle, -⟩ := hend
            omega
        cases hps with
        | nil =>
          cases r with
          | none => exact absurd hend (Nat.ne_of_lt hlt)
          | some config =>
            obtain ⟨length, hkey, hlength, hsome, hvalue, rfl⟩ := hend
            refine ⟨(), by omega, 5, hkey, length, hlength, (), hvalue, ?_⟩
            simp only [if_pos, bind_ok_iff, bailIf_ok_iff]
            refine ⟨(), hsome, _, slice_of_le (Nat.le_add_right _ _) (Nat.le_trans hvalue hstop), ?_⟩
            rw [Nat.add_sub_cancel_left]
            rfl
        | @cons _ _ key length ps hkey hlength hps =>
          obtain ⟨hfive, hkeys⟩ := forall_mem_cons.mp hkeys
          have hle := hps.le
          refine ⟨(), by omega, key, hkey, length, hlength, (), by omega, ?_⟩
          rw [if_neg hfive]
          exact (ih _ (by omega) (by omega) rfl).mpr ⟨ps, q, hps, hkeys, hend⟩
    · obtain rfl : p = stop := by omega
      rw [dif_neg hlt]
      constructor
      · intro h
        cases h
        exact ⟨[], p, .nil, nofun, rfl⟩
      · rintro ⟨ps, q, hps, -, hend⟩
        have hle := hps.le
        cases r with
        | none => rfl
        | some config =>
          obtain ⟨_, -, -, -, hvalue, -⟩ := hend
          omega

theorem echParameters_ne_panic (hstop : stop ≤ m.length) : echParameters m stop p ≠ .error .panic := by
  induction hn : stop - p using Nat.strong_induction_on generalizing p with
  | _ n ih =>
    rw [echParameters]
    split
    · refine bailIf_bind_ne_panic fun hfour => ?_
      obtain ⟨key, hkey⟩ := u16At_ok_of_le (show p + 2 ≤ m.length by omega)
      obtain ⟨length, hlength⟩ := u16At_ok_of_le (show p + 2 + 2 ≤ m.length by omega)
      refine ok_bind_ne_panic hkey (ok_bind_ne_panic hlength (bailIf_bind_ne_panic fun hvalue => ?_))
      split
      · refine bailIf_bind_ne_panic fun _ => ?_
        exact ok_bind_ne_panic (slice_of_le (Nat.le_add_right _ _) (by omega)) nofun
      · exact ih _ (by omega) rfl
    · exact nofun

/-! ## Records -/

/-- The record has its priority and its target name, and the parameters start here. -/
def Place.ParametersAt (m : Bytes) (r : Place) (target : Nat) : Prop :=
  r.fixed + 12 ≤ r.stop ∧ skipName m (r.fixed + 12) = .ok target ∧ target ≤ r.stop

/-- The record consists of complete parameters, none of them with key 5. -/
def Place.WithoutEch (m : Bytes) (r : Place) : Prop :=
  ∃ target ps, r.ParametersAt m target ∧ Params m target ps r.stop ∧ ∀ x ∈ ps, x.1 ≠ 5

/-- The first parameter of the record with key 5 has this value; those before it are complete. -/
def Place.HasEch (m : Bytes) (r : Place) (config : Bytes) : Prop :=
  ∃ target ps q, r.ParametersAt m target ∧ Params m target ps q ∧ (∀ x ∈ ps, x.1 ≠ 5) ∧ EchValue m r.stop q config

theorem echOf_ok_iff {r : Place} (hin : r.stop ≤ m.length) {result : Option Bytes} :
    echOf m r.fixed r.stop = .ok result ↔
      match result with
      | none => r.WithoutEch m
      | some config => r.HasEch m config := by
  simp only [echOf, bind_ok_iff, bailIf_ok_iff, Nat.not_lt]
  constructor
  · rintro ⟨-, hpriority, target, htarget, -, hle, h⟩
    obtain ⟨ps, q, hps, hkeys, hend⟩ := (echParameters_ok_iff hin hle).mp h
    cases result with
    | none => exact ⟨target, ps, ⟨hpriority, htarget, hle⟩, hend ▸ hps, hkeys⟩
    | some config => exact ⟨target, ps, q, ⟨hpriority, htarget, hle⟩, hps, hkeys, hend⟩
  · intro h
    cases result with
    | none =>
      obtain ⟨target, ps, ⟨hpriority, htarget, hle⟩, hps, hkeys⟩ := h
      exact ⟨(), hpriority, target, htarget, (), hle, (echParameters_ok_iff hin hle).mpr ⟨ps, _, hps, hkeys, rfl⟩⟩
    | some config =>
      obtain ⟨target, ps, q, ⟨hpriority, htarget, hle⟩, hps, hkeys, hend⟩ := h
      exact ⟨(), hpriority, target, htarget, (), hle, (echParameters_ok_iff hin hle).mpr ⟨ps, q, hps, hkeys, hend⟩⟩

/-- The first of the records from `p` on that has a config, and its TTL. -/
def EchFound (m : Bytes) (answers p : Nat) (config : Bytes) (ttl : UInt32) : Prop :=
  ∃ (before : List Place) (q : Nat) (r : Place), before.length < answers ∧ Placed m p before q ∧
    (∀ e ∈ before, e.kind = 65 → e.WithoutEch m) ∧
    r.At m q ∧ r.kind = 65 ∧ r.ttl = ttl ∧ r.HasEch m config

/-- One round of the loop over the answers. -/
theorem echAnswers_succ_ok_iff {answers : Nat} {config : Bytes} :
    echAnswers m (answers + 1) p = .ok (config, ttl) ↔ ∃ r : Place, r.At m p ∧
      (r.kind = 65 ∧ r.ttl = ttl ∧ r.HasEch m config ∨
        (r.kind = 65 → r.WithoutEch m) ∧ echAnswers m answers r.stop = .ok (config, ttl)) := by
  rw [echAnswers]
  simp only [bind_ok_iff, bailIf_ok_iff, Nat.not_lt]
  constructor
  · rintro ⟨fixed, hname, -, -, kind, hkind, httl', httl, length, hlength, -, hin, h⟩
    refine ⟨⟨fixed, kind, httl', length⟩, ⟨hname, hkind, httl, hlength, hin⟩, ?_⟩
    split at h
    · next hother => exact .inr ⟨fun h => absurd h hother, h⟩
    · next hhttps =>
      obtain ⟨found, hfound, h⟩ := bind_ok_iff.mp h
      have hech := (echOf_ok_iff (r := ⟨fixed, kind, httl', length⟩) hin).mp hfound
      cases found with
      | none => exact .inr ⟨fun _ => hech, h⟩
      | some c =>
        cases h
        exact .inl ⟨not_not.mp hhttps, rfl, hech⟩
  · rintro ⟨r, hr, h⟩
    have hin := hr.inside
    have hfixed : r.fixed + 10 ≤ m.length := Nat.le_trans (Nat.le_add_right _ _) hin
    refine ⟨r.fixed, hr.name, (), hfixed, r.kind, hr.kind, r.ttl, hr.ttl, r.length, hr.length, (), hin, ?_⟩
    rcases h with ⟨hkind, rfl, hech⟩ | ⟨hwithout, h⟩
    · rw [if_neg (not_not.mpr hkind)]
      exact bind_ok_iff.mpr ⟨some config, (echOf_ok_iff hin).mpr hech, rfl⟩
    · split
      · exact h
      · next hhttps =>
        exact bind_ok_iff.mpr ⟨none, (echOf_ok_iff hin).mpr (hwithout (not_not.mp hhttps)), h⟩

theorem echAnswers_ok_iff {answers : Nat} {config : Bytes} :
    echAnswers m answers p = .ok (config, ttl) ↔ EchFound m answers p config ttl := by
  induction answers generalizing p with
  | zero => exact ⟨nofun, fun ⟨_, _, _, hlt, _⟩ => absurd hlt (Nat.not_lt_zero _)⟩
  | succ answers ih =>
    rw [echAnswers_succ_ok_iff]
    constructor
    · rintro ⟨r, hr, ⟨hkind, httl, hech⟩ | ⟨hwithout, h⟩⟩
      · exact ⟨[], p, r, Nat.succ_pos _, .nil, nofun, hr, hkind, httl, hech⟩
      · obtain ⟨before, q, r', hlt, hplaced, hbefore, hfound⟩ := ih.mp h
        exact ⟨r :: before, q, r', Nat.succ_lt_succ hlt, .cons hr hplaced,
          forall_mem_cons.mpr ⟨hwithout, hbefore⟩, hfound⟩
    · rintro ⟨before, q, r, hlt, hplaced, hbefore, hr, hkind, httl, hech⟩
      cases hplaced with
      | nil => exact ⟨r, hr, .inl ⟨hkind, httl, hech⟩⟩
      | cons hfirst hplaced =>
        obtain ⟨hwithout, hbefore⟩ := forall_mem_cons.mp hbefore
        exact ⟨_, hfirst,
          .inr ⟨hwithout, ih.mpr ⟨_, q, r, Nat.lt_of_succ_lt_succ hlt, hplaced, hbefore, hr, hkind, httl, hech⟩⟩⟩

theorem echAnswers_ne_panic : ∀ (answers p : Nat), echAnswers m answers p ≠ .error .panic
  | 0, _ => nofun
  | answers + 1, p => by
    refine bind_ne_panic (skipLabels_ne_panic 127 p) fun q => bailIf_bind_ne_panic fun hfixed => ?_
    obtain ⟨kind, hkind⟩ := u16At_ok_of_le (show q + 2 ≤ m.length by omega)
    obtain ⟨ttl, httl⟩ := u32At_ok_of_le (show q + 4 + 4 ≤ m.length by omega)
    obtain ⟨length, hlength⟩ := u16At_ok_of_le (show q + 8 + 2 ≤ m.length by omega)
    refine ok_bind_ne_panic hkind (ok_bind_ne_panic httl (ok_bind_ne_panic hlength ?_))
    refine bailIf_bind_ne_panic fun hin => ?_
    split
    · exact echAnswers_ne_panic answers _
    · refine bind_ne_panic ?_ fun found => ?_
      · refine bailIf_bind_ne_panic fun _ => bind_ne_panic (skipLabels_ne_panic 127 _) fun _ => ?_
        exact bailIf_bind_ne_panic fun _ => echParameters_ne_panic (Nat.not_lt.mp hin)
      · cases found with
        | none => exact echAnswers_ne_panic answers _
        | some config => exact nofun

end

theorem mapError_ok_iff {α : Type} {x : Except Failure α} {f : Failure → Failure} {a : α} :
    x.mapError f = .ok a ↔ x = .ok a := by
  cases x <;> simp [Except.mapError]

theorem parseHttpsEch_ne_panic (id : UInt16) (m : Bytes) : parseHttpsEch id m ≠ .error .panic := by
  refine bailIf_bind_ne_panic fun hlong => ?_
  have hheader : ∀ i, i + 2 ≤ 12 → ∃ n, u16At m i = .ok n := fun i hi => u16At_ok_of_le (by omega)
  obtain ⟨_, h2⟩ := hheader 2 (by omega)
  obtain ⟨_, h4⟩ := hheader 4 (by omega)
  obtain ⟨_, h6⟩ := hheader 6 (by omega)
  refine bind_ne_panic ?_ fun _ => bailIf_bind_ne_panic fun _ => ?_
  · unfold dnsId
    split <;> rintro ⟨⟩
  refine ok_bind_ne_panic h2 (bailIf_bind_ne_panic fun _ => ?_)
  refine ok_bind_ne_panic h4 (ok_bind_ne_panic h6 ?_)
  refine bind_ne_panic ?_ fun _ => echAnswers_ne_panic _ _
  intro h
  cases hskip : skipQuestions m _ 12 with
  | ok p =>
    rw [hskip] at h
    cases h
  | error e =>
    rw [hskip] at h
    refine skipQuestions_ne_panic _ _ (hskip.trans (congrArg Except.error ?_))
    have he : httpsQuestion e = .panic := Except.error.inj h
    unfold httpsQuestion at he
    split at he
    · cases he
    · exact he

/-- **ECH discovery.** -/
theorem parse_https_ech (id : UInt16) (m : Bytes) :
    (∀ config ttl, parseHttpsEch id m = .ok (config, ttl) ↔
      12 ≤ m.length ∧ dnsId m = .ok id ∧ (∃ flags, u16At m 2 = .ok flags ∧ flags &&& 0x8000 ≠ 0 ∧ flags &&& 15 = 0) ∧
        ∃ questions answers p, u16At m 4 = .ok questions ∧ u16At m 6 = .ok answers ∧
          skipQuestions m questions.toNat 12 = .ok p ∧ EchFound m answers.toNat p config ttl) ∧
      (∀ answers p config ttl, EchFound m answers p config ttl → config ≠ []) ∧ parseHttpsEch id m ≠ .error .panic := by
  refine ⟨?_, ?_, parseHttpsEch_ne_panic id m⟩
  · simp only [parseHttpsEch, bind_ok_iff, bailIf_ok_iff, Nat.not_lt, not_or, not_not, mapError_ok_iff,
      echAnswers_ok_iff]
    grind
  · rintro answers p config ttl ⟨_, _, r, -, -, -, hr, -, -, _, _, q, -, -, -, length, -, -, hsome, hvalue, rfl⟩
    have hin := hr.inside
    have hpos : length.toNat ≠ 0 := fun h0 => hsome (UInt16.toNat_inj.mp h0)
    rw [← length_pos_iff, length_take, length_drop]
    omega

end Xhttp.Dns
