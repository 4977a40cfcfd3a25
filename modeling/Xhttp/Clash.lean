import Mathlib.Data.List.Infix
import Xhttp.Lib.Text

/- The extraction of the dashboard: the loop of `ensure_ui` (`src/clash.rs`) over the entries of the archive.
   An entry is written to `ui_dir` joined with its name behind the first segment, as it stands there; an entry
   that cannot be read, created or copied is the last. A place is a path from the root without `.` and `..`.

   `normalize_spec`: a path goes up some directories and then down by names. That is where the condition comes from
   under which an archive stays in `ui_dir` (`extraction_stays_inside_iff`).

   How far the system lets `create_dir_all` and `File::create` come on the way of an entry is part of the entry. -/
namespace Xhttp.Clash
open Xhttp.Lib List

/-- `name.split('/').skip(1).collect::<Vec<_>>().join("/")`. -/
def relative (name : Str) : Str := intercalate ['/'] ((Str.split '/' name).drop 1)

/-- `Path::new(dir).join(path)`. -/
def join (dir path : Str) : Str :=
  if Str.startsWith '/' path then path
  else if dir = [] ∨ Str.endsWith '/' dir then dir ++ path
  else dir ++ '/' :: path

def enter (dir : List Str) (component : Str) : List Str :=
  if component = "." then dir else if component = ".." then dir.dropLast else dir ++ [component]

/-- Where a path starts: the root, or a directory. -/
def base (dir : List Str) (path : Str) : List Str := if Str.startsWith '/' path then [] else dir

def resolve (dir : List Str) (path : Str) : List Str := (Str.fields '/' path).foldl enter (base dir path)

/-- The places on a way along a path. -/
def places (dir : List Str) (path : Str) (way : List Str) : List (List Str) :=
  way.inits.map (foldl enter (base dir path))

/-- An entry, and what comes of it: whether `by_index` reads it, how many components of its way are made or written to
    or exist, and whether `File::create` and `io::copy` succeed. -/
structure Entry where
  name : Str
  readable : Bool
  made : Nat
  copied : Bool

def Entry.isDir (e : Entry) : Bool := Str.endsWith '/' e.name || Str.endsWith '\\' e.name

/-- The part of its way that an entry comes along. -/
def Entry.way (e : Entry) : List Str := if e.readable then (Str.fields '/' (relative e.name)).take e.made else []

/-- No error of the entry is passed on by `?`; those of `create_dir_all` are not. -/
def Entry.goesOn (e : Entry) : Bool := e.readable && (relative e.name = [] || e.isDir || e.copied)

/-- What an entry creates or writes, where `ui_dir`, the directories above it and these exist. -/
def created (dirs : List (List Str)) (dir : List Str) (e : Entry) : List (List Str) :=
  (places dir (relative e.name) e.way).filter fun p => ¬p <+: dir ∧ p ∉ dirs

/-- The loop: what it creates or writes. -/
def extract (dirs : List (List Str)) (dir : List Str) : List Entry → List (List Str)
  | [] => []
  | e :: archive => created dirs dir e ++ if e.goesOn then extract dirs dir archive else []

/-- The entries that the loop comes to. -/
def reached : List Entry → List Entry
  | [] => []
  | e :: archive => e :: if e.goesOn then reached archive else []

theorem fields_join (dir path : Str) (h : Str.startsWith '/' path = false) :
    Str.fields '/' (join dir path) = Str.fields '/' dir ++ Str.fields '/' path := by
  rw [join, if_neg (by simp [h])]
  split
  · next hend =>
    rcases hend with rfl | hend
    · simp
    · obtain ⟨front, rfl⟩ := getLast?_eq_some_iff.mp (eq_of_beq hend)
      rw [append_assoc, singleton_append, Str.fields_append_cons, Str.fields_append_self]
  · exact Str.fields_append_cons '/' dir path

theorem resolve_join (cwd : List Str) (dir path : Str) :
    resolve cwd (join dir path) = resolve (resolve cwd dir) path := by
  cases h : Str.startsWith '/' path with
  | true => simp [join, resolve, base, h]
  | false =>
    have hbase : base cwd (join dir path) = base cwd dir := by
      cases dir with
      | nil =>
        have hnil : Str.startsWith '/' [] = false := rfl
        simp [join, base, h, hnil]
      | cons c dir =>
        unfold join
        split_ifs <;> simp_all [base, Str.startsWith]
    rw [resolve, fields_join dir path h, foldl_append, hbase]
    simp [resolve, base, h]

/-- How far a path goes up from where it starts, and the names it then goes down by. -/
def normalize (path : List Str) : Nat × List Str :=
  path.foldl (fun p (c : Str) => if c = ".." ∧ p.2 = [] then (p.1 + 1, []) else (p.1, enter p.2 c)) (0, [])

theorem normalize_spec (dir path : List Str) :
    path.foldl enter dir = dir.take (dir.length - (normalize path).1) ++ (normalize path).2 := by
  induction path using reverseRecOn with
  | nil => simp [normalize]
  | append_singleton path c ih =>
    have hstep : normalize (path ++ [c]) = if c = ".." ∧ (normalize path).2 = [] then ((normalize path).1 + 1, [])
        else ((normalize path).1, enter (normalize path).2 c) := by rw [normalize, foldl_append]; rfl
    rw [foldl_append, ih, hstep]
    split_ifs with hup
    · rw [hup.1, hup.2, append_nil, append_nil, foldl_cons, foldl_nil]
      show (dir.take _).dropLast = _
      rw [dropLast_eq_take, take_take, length_take]
      congr 1
      omega
    · rw [foldl_cons, foldl_nil]
      unfold enter at hup ⊢
      split_ifs with hdot hdots
      · rfl
      · exact dropLast_append_of_ne_nil fun h => hup ⟨hdots, h⟩
      · rw [append_assoc]

/-- How many names of the directory a path keeps at this point of its way. -/
def kept (dir : List Str) (path : Str) (way : List Str) : Nat :=
  if Str.startsWith '/' path then 0 else dir.length - (normalize way).1

theorem place_eq (dir : List Str) (path : Str) (way : List Str) :
    way.foldl enter (base dir path) = dir.take (kept dir path way) ++ (normalize way).2 := by
  rw [normalize_spec, base, kept]
  split_ifs
  · simp
  · rfl

/-- Where a way has gone up, it goes down by the names that it left, as far as these go, or into a directory
    that exists. -/
def Returns (dirs : List (List Str)) (dir : List Str) (path : Str) (way : List Str) : Prop :=
  ∀ part ∈ way.inits, dir.drop (kept dir path part) <+: (normalize part).2 ∨
    (normalize part).2 <+: dir.drop (kept dir path part) ∨ dir.take (kept dir path part) ++ (normalize part).2 ∈ dirs

theorem returns_iff (dirs : List (List Str)) (dir : List Str) (path : Str) (way : List Str) :
    Returns dirs dir path way ↔ ∀ p ∈ places dir path way, dir <+: p ∨ p <+: dir ∨ p ∈ dirs := by
  rw [places, forall_mem_map]
  refine forall₂_congr fun part _ => ?_
  have hkeep := fun a b : List Str =>
    (prefix_append_right_inj (dir.take (kept dir path part)) : _ ++ a <+: _ ++ b ↔ a <+: b)
  rw [place_eq, ← hkeep, take_append_drop, ← hkeep (normalize part).2, take_append_drop]

theorem created_inside_iff (dirs : List (List Str)) (dir : List Str) (e : Entry) :
    (∀ p ∈ created dirs dir e, dir <+: p) ↔ Returns dirs dir (relative e.name) e.way := by
  rw [returns_iff]
  refine forall_congr' fun p => ?_
  simp only [created, mem_filter, decide_eq_true_eq]
  tauto

theorem extract_inside_iff (dirs : List (List Str)) (dir : List Str) (archive : List Entry) :
    (∀ p ∈ extract dirs dir archive, dir <+: p) ↔
      ∀ e ∈ reached archive, Returns dirs dir (relative e.name) e.way := by
  induction archive with
  | nil => simp [extract, reached]
  | cons e archive ih =>
    rw [extract, reached, forall_mem_append, forall_mem_cons, created_inside_iff]
    cases e.goesOn with
    | true => exact and_congr_right fun _ => ih
    | false => simp

/-- **Extraction.** The path of an entry leads where its remainder does from `ui_dir`; and an archive creates and writes
    nothing outside `ui_dir`, exactly if each entry that the loop comes to returns where it leaves it. -/
theorem extraction_stays_inside_iff (cwd : List Str) (uiDir : Str) (dirs : List (List Str)) (archive : List Entry) :
    (∀ e ∈ archive, resolve cwd (join uiDir (relative e.name)) = resolve (resolve cwd uiDir) (relative e.name)) ∧
    ((∀ p ∈ extract dirs (resolve cwd uiDir) archive, resolve cwd uiDir <+: p) ↔
      ∀ e ∈ reached archive, Returns dirs (resolve cwd uiDir) (relative e.name) e.way) :=
  ⟨fun e _ => resolve_join cwd uiDir (relative e.name), extract_inside_iff dirs _ archive⟩

/-- One entry goes up, another has an absolute remainder; behind one that fails, neither is come to. -/
theorem extraction_escapes :
    resolve ["srv".toList] "ui" = ["srv".toList, "ui".toList] ∧
      extract [] ["srv".toList, "ui".toList] [⟨"a/../x", true, 2, true⟩, ⟨"a//etc/x", true, 2, true⟩] =
        [["srv".toList, "x".toList], ["etc".toList], ["etc".toList, "x".toList]] ∧
      extract [] ["srv".toList, "ui".toList]
        [⟨"a/x", true, 1, true⟩, ⟨"a/x/y", true, 0, false⟩, ⟨"a/../x", true, 2, true⟩] =
        [["srv".toList, "ui".toList, "x".toList]] := by
  decide +kernel

end Xhttp.Clash
