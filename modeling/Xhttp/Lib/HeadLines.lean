import Xhttp.Lib.Text

/- Heads of line-based protocols: lines ended by CR LF, and an empty line at the end.

   1. `head_ends_once` — a head of non-empty lines has CR LF CR LF at its end and nowhere else,
      so a reader that stops at the first one has read exactly the head.
   2. `text_of_head` — a head that is UTF-8 is the text of its lines, each line being UTF-8 itself:
      a byte below 128 never stands inside the encoding of another character (`cut_ascii`).
   3. `lines_textHead` — `str::lines` takes that text apart again. -/
namespace Xhttp.Lib
open List

def crlf : Bytes := [13, 10]

def blankLine : Bytes := [13, 10, 13, 10]

def headOf (lines : List Bytes) : Bytes := lines.flatMap (· ++ crlf) ++ crlf

/-- A line that a head can have: not the empty line that ends it. -/
structure IsLine (line : Bytes) : Prop where
  ne_nil : line ≠ []
  cr : 13 ∉ line
  lf : 10 ∉ line

theorem headOf_cons (line : Bytes) (lines : List Bytes) :
    headOf (line :: lines) = line ++ 13 :: 10 :: headOf lines := by
  simp [headOf, crlf]

theorem head?_headOf {lines : List Bytes} (h : ∀ line ∈ lines, IsLine line) (hne : lines ≠ []) :
    (headOf lines).head? ≠ some 13 := by
  obtain ⟨line, rest, rfl⟩ := exists_cons_of_ne_nil hne
  have hline := h line mem_cons_self
  obtain ⟨b, bs, rfl⟩ := exists_cons_of_ne_nil hline.ne_nil
  intro hhead
  have hb : b = 13 := by simpa [headOf_cons] using hhead
  exact hline.cr (by simp [hb])

/-- Nothing follows a blank line in a head: the induction is on the lines before it. -/
theorem nil_of_headOf_eq {lines : List Bytes} (h : ∀ line ∈ lines, IsLine line) {before after : Bytes}
    (heq : headOf lines = before ++ blankLine ++ after) : after = [] := by
  induction lines generalizing before with
  | nil =>
    have hlen := congrArg List.length heq
    simp [headOf, crlf, blankLine] at hlen
    omega
  | cons line lines ih =>
    have hline := h line mem_cons_self
    have hrest : ∀ l ∈ lines, IsLine l := fun l hl => h l (mem_cons_of_mem line hl)
    rw [headOf_cons, append_assoc] at heq
    -- the blank line starts behind the first line, which has no CR
    obtain ⟨mid, rfl, hmid⟩ : ∃ mid, before = line ++ mid ∧ 13 :: 10 :: headOf lines = mid ++ (blankLine ++ after) := by
      rcases append_eq_append_iff.mp heq with ⟨mid, hbefore, hmid⟩ | ⟨mid, hbefore, hmid⟩
      · exact ⟨mid, hbefore, hmid⟩
      · cases mid with
        | nil => exact ⟨[], by simpa using hbefore.symm, by simpa using hmid.symm⟩
        | cons b mid =>
          have hb : b = 13 := by simpa [blankLine, eq_comm] using congrArg List.head? hmid
          exact absurd (by simp [hbefore, hb]) hline.cr
    match mid, hmid with
    | [], hmid =>
      have hhead : headOf lines = 13 :: 10 :: after := by simpa [blankLine] using hmid
      cases lines with
      | nil => simpa [headOf, crlf] using hhead
      | cons l ls => exact absurd (by rw [hhead]; rfl) (head?_headOf hrest (cons_ne_nil l ls))
    | [_], hmid => simp [blankLine] at hmid
    | _ :: _ :: mid, hmid =>
      grind

/-- No proper initial part of a head ends with a blank line. -/
theorem head_ends_once {lines : List Bytes} (h : ∀ line ∈ lines, IsLine line) {part rest : Bytes}
    (heq : headOf lines = part ++ rest) (hend : blankLine <:+ part) : rest = [] := by
  obtain ⟨before, rfl⟩ := hend
  exact nil_of_headOf_eq h heq

theorem blankLine_suffix {lines : List Bytes} (hne : lines ≠ []) : blankLine <:+ headOf lines := by
  obtain ⟨front, line, rfl⟩ : ∃ front line, lines = front ++ [line] :=
    ⟨lines.dropLast, lines.getLast hne, (dropLast_append_getLast hne).symm⟩
  exact ⟨front.flatMap (· ++ crlf) ++ line, by simp [headOf, crlf, blankLine]⟩

/-! ## Text of a head -/

namespace Str

/-- A byte below 128 in the encoding of a character is the character. -/
theorem utf8EncodeChar_of_mem {c : Char} {b : UInt8} (h : b ∈ String.utf8EncodeChar c) (hb : b.toNat < 128) :
    c.toNat = b.toNat := by
  have hval : c.val.toNat = c.toNat := rfl
  rw [String.utf8EncodeChar] at h
  split at h
  · rw [mem_singleton.mp h, UInt8.toNat_ofNat']
    omega
  · split at h
    · simp only [mem_cons, not_mem_nil, or_false] at h
      rcases h with rfl | rfl <;> rw [UInt8.toNat_ofNat'] at hb <;> omega
    split at h
    · simp only [mem_cons, not_mem_nil, or_false] at h
      rcases h with rfl | rfl | rfl <;> rw [UInt8.toNat_ofNat'] at hb <;> omega
    · simp only [mem_cons, not_mem_nil, or_false] at h
      rcases h with rfl | rfl | rfl | rfl <;> rw [UInt8.toNat_ofNat'] at hb <;> omega

theorem asBytes_append (s t : Str) : asBytes (s ++ t) = asBytes s ++ asBytes t := by
  simp [asBytes]

theorem asBytes_cons (c : Char) (s : Str) : asBytes (c :: s) = String.utf8EncodeChar c ++ asBytes s := by
  simp [asBytes]

/-- Text is cut at the first place where its bytes have the code of an ASCII character. -/
theorem cut_ascii {c : Char} {b : UInt8} (hc : String.utf8EncodeChar c = [b]) (hb : b.toNat < 128) {text : Str}
    {front back : Bytes} (hfront : b ∉ front) (heq : asBytes text = front ++ b :: back) :
    ∃ s t, text = s ++ c :: t ∧ asBytes s = front ∧ asBytes t = back := by
  have hcb : c.toNat = b.toNat := utf8EncodeChar_of_mem (by simp [hc]) hb
  induction text generalizing front with
  | nil => simp [asBytes] at heq
  | cons d text ih =>
    rw [asBytes_cons] at heq
    by_cases hd : d = c
    · subst hd
      rw [hc] at heq
      cases front with
      | nil => exact ⟨[], text, rfl, rfl, (List.cons.inj heq).2⟩
      | cons x front => exact absurd (by simp [(List.cons.inj heq).1]) hfront
    · -- `d` is another character, so its encoding lies before the place of the cut
      have hnot : b ∉ String.utf8EncodeChar d := fun hmem =>
        hd (Char.toNat_inj.mp ((utf8EncodeChar_of_mem hmem hb).trans hcb.symm))
      obtain ⟨mid, rfl, hmid⟩ : ∃ mid, front = String.utf8EncodeChar d ++ mid ∧ asBytes text = mid ++ b :: back := by
        rcases append_eq_append_iff.mp heq with ⟨mid, hmid, hrest⟩ | ⟨mid, hmid, hrest⟩
        · exact ⟨mid, hmid, hrest⟩
        · cases mid with
          | nil => exact ⟨[], by simpa using hmid.symm, by simpa using hrest.symm⟩
          | cons x mid =>
            have hx : b = x := (List.cons.inj hrest).1
            exact absurd (by simp [hmid, hx]) hnot
      obtain ⟨s, t, rfl, hs, ht⟩ := ih (fun hmem => hfront (mem_append_right _ hmem)) hmid
      exact ⟨d :: s, t, rfl, by rw [asBytes_cons, hs], ht⟩

def textHead (lines : List Str) : Str := lines.flatMap (· ++ ['\r', '\n']) ++ ['\r', '\n']

theorem textHead_cons (line : Str) (lines : List Str) :
    textHead (line :: lines) = line ++ '\r' :: '\n' :: textHead lines := by
  simp [textHead]

theorem text_of_headOf {lines : List Bytes} (h : ∀ line ∈ lines, IsLine line) {text : Str}
    (heq : asBytes text = headOf lines) : ∃ texts, lines = texts.map asBytes ∧ text = textHead texts := by
  induction lines generalizing text with
  | nil =>
    have hnil : textHead [] = text := asBytes_injective (heq.symm ▸ rfl)
    exact ⟨[], rfl, hnil.symm⟩
  | cons line lines ih =>
    have hline := h line mem_cons_self
    rw [headOf_cons] at heq
    obtain ⟨s, t, rfl, hs, ht⟩ := cut_ascii (c := '\r') rfl (by decide) hline.cr heq
    have hlf : asBytes t = [] ++ 10 :: headOf lines := ht
    obtain ⟨s', t', rfl, hs', ht'⟩ := cut_ascii (c := '\n') rfl (by decide) not_mem_nil hlf
    obtain rfl : s' = [] := asBytes_injective hs'
    obtain ⟨texts, rfl, rfl⟩ := ih (fun l hl => h l (mem_cons_of_mem line hl)) ht'
    exact ⟨s :: texts, by simp [hs], by rw [textHead_cons]; rfl⟩

theorem text_of_head {lines : List Bytes} (h : ∀ line ∈ lines, IsLine line) {text : Str}
    (htext : fromUtf8 (headOf lines) = some text) : ∃ texts, lines = texts.map asBytes ∧ text = textHead texts :=
  text_of_headOf h (asBytes_of_fromUtf8 htext)

/-! ## Taking text apart -/

/-- A line without the CR of its end. -/
def stripCr (line : Str) : Str := if line.getLast? = some '\r' then line.dropLast else line

/-- `str::lines`: the last piece is a line only if it is not empty, and keeps its CR. -/
def lines (s : Str) : List Str :=
  (split '\n' s).dropLast.map stripCr ++ (split '\n' s).getLast?.toList.filter (· ≠ [])

variable {line word : Str}

theorem lines_cons (h : '\n' ∉ line) (rest : Str) : lines (line ++ '\n' :: rest) = stripCr line :: lines rest := by
  have hsplit : split '\n' (line ++ '\n' :: rest) = line :: split '\n' rest := by
    have := splitOn_append_cons_self (a := '\n') line rest
    rwa [splitOn_eq_singleton h] at this
  have hne : split '\n' rest ≠ [] := splitOn_ne_nil _ _
  rw [lines, hsplit, dropLast_cons_of_ne_nil hne, map_cons, getLast?_cons_of_ne_nil hne]
  rfl

theorem lines_of_notMem (h : '\n' ∉ line) : lines line = [line].filter (· ≠ []) := by
  rw [lines, split_of_notMem h]
  rfl

theorem lines_append (h : '\n' ∉ line) (rest : Str) : lines (line ++ '\r' :: '\n' :: rest) = line :: lines rest := by
  have hline : line ++ '\r' :: '\n' :: rest = (line ++ ['\r']) ++ '\n' :: rest := by simp
  have hstrip : stripCr (line ++ ['\r']) = line := by simp [stripCr]
  rw [hline, lines_cons (by simp [h]), hstrip]

theorem lines_textHead {texts : List Str} (h : ∀ text ∈ texts, '\n' ∉ text) :
    lines (textHead texts) = texts ++ [[]] := by
  induction texts with
  | nil => rfl
  | cons text texts ih =>
    rw [textHead_cons, lines_append (h text mem_cons_self), ih fun t ht => h t (mem_cons_of_mem text ht)]
    rfl

theorem splitWhitespace_word (hne : word ≠ []) (h : ∀ c ∈ word, isWhitespace c = false) :
    splitWhitespace word = [word] := by
  simp [splitWhitespace, splitOnP_eq_singleton h, hne]

theorem splitWhitespace_append (hne : word ≠ []) (h : ∀ c ∈ word, isWhitespace c = false) (rest : Str) :
    splitWhitespace (word ++ ' ' :: rest) = word :: splitWhitespace rest := by
  simp [splitWhitespace, splitOnP_append_cons_of_forall_mem h ' ' rfl, hne]

end Str
end Xhttp.Lib
