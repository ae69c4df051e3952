import PlexManager.Lib.TextCodec

/-!
# Taking URLs apart

`urllib.parse` on text. A URL is cut at the first separator of each kind: the
scheme before a colon, the network location after two slashes, the fragment and
the query. For some schemes what follows a semicolon in the last segment of the
path is cut off as well: these are the parameters, and they are no part of the
path any more.

Blanks and control characters in front of a URL are dropped, and so are tabs and
line ends wherever they stand. Which network locations are refused beyond an
unpaired bracket is left to the caller.

## Theorems

* `cut_append`, `splitLast_append`: What was cut is put together again.
* `segments_append`: The segments of a path and its last one.
-/

namespace Url

open TextCodec

/-! ### Cutting -/

/-- Text before the first separator, and after it if there is one: `partition`. -/
def cut (sep : Char) (s : Text) : Text × Option Text :=
  match s.dropWhile (· ≠ sep) with
  | [] => (s, none)
  | _ :: after => (s.takeWhile (· ≠ sep), some after)

/-- Text after the last separator, or all of it: the last part of `rpartition`. -/
def afterLast (sep : Char) (s : Text) : Text := (s.reverse.takeWhile (· ≠ sep)).reverse

variable (sep : Char) (s : Text)

theorem cut_append : s = (cut sep s).1 ++ ((cut sep s).2.map (sep :: ·)).getD [] := by
  have happ := List.takeWhile_append_dropWhile (p := fun c => decide (c ≠ sep)) (l := s)
  unfold cut
  split
  · simp
  rename_i c after hdrop
  have hsep : c = sep := by
    have hhead := List.head?_dropWhile_not (fun c => decide (c ≠ sep)) s
    rw [hdrop] at hhead
    simpa using hhead
  rw [hdrop, hsep] at happ
  simpa using happ.symm

theorem notMem_afterLast : sep ∉ afterLast sep s := by
  intro hmem
  have hne := List.mem_takeWhile_imp (List.mem_reverse.mp hmem)
  simp at hne

-- What stands before the last separator ends with it.
theorem afterLast_append : ∃ before,
    s = before ++ afterLast sep s ∧ (before = [] ∨ ∃ u, before = u ++ [sep]) := by
  refine ⟨(s.reverse.dropWhile (· ≠ sep)).reverse, ?_, ?_⟩
  · rw [afterLast, ← List.reverse_append, List.takeWhile_append_dropWhile, List.reverse_reverse]
  · cases hdrop : s.reverse.dropWhile (· ≠ sep) with
    | nil => exact .inl rfl
    | cons c rest =>
      have hhead := List.head?_dropWhile_not (fun c => decide (c ≠ sep)) s.reverse
      rw [hdrop] at hhead
      have hsep : c = sep := by simpa using hhead
      exact .inr ⟨rest.reverse, by rw [hsep, List.reverse_cons]⟩

theorem notMem_cut (h : sep ∉ s) : cut sep s = (s, none) := by
  unfold cut
  have hdrop : s.dropWhile (· ≠ sep) = [] := by
    rw [List.dropWhile_eq_nil_iff]
    intro c hc
    have hne : c ≠ sep := fun heq => h (heq ▸ hc)
    simpa using hne
  rw [hdrop]

/-! ### `urlsplit` -/

structure SplitResult where
  scheme : Text
  netloc : Text
  path : Text
  query : Text
  fragment : Text
  deriving DecidableEq, Repr

variable (path : Text) (c : Char)

/-- In `_WHATWG_C0_CONTROL_OR_SPACE`. -/
def isC0OrSpace : Bool := c.toNat ≤ 0x20

/-- In `_UNSAFE_URL_BYTES_TO_REMOVE`. -/
def isUnsafe : Bool := c = '\t' || c = '\r' || c = '\n'

def isLetter : Bool := isAscii c && c.isAlpha

/-- In `scheme_chars`. -/
def isSchemeChar : Bool :=
  isAscii c && (c.isAlphanum || c = '+' || c = '-' || c = '.')

def splitScheme (url : Text) : Text × Text :=
  match cut ':' url with
  | (scheme, some rest) =>
      if (scheme.head?.any isLetter) && scheme.all isSchemeChar then
        (scheme.map Char.toLower, rest)
      else ([], url)
  | (_, none) => ([], url)

/-- `_splitnetloc`, where there are two slashes. -/
def splitNetloc : Text → Text × Text
  | '/' :: '/' :: rest => rest.span fun c => c ≠ '/' && c ≠ '?' && c ≠ '#'
  | url => ([], url)

/-- What is left of a URL when it is taken apart. -/
def cleaned (url : Text) : Text := (url.dropWhile isC0OrSpace).filter fun c => !isUnsafe c

/-- `urlsplit`, or `none` where it raises a `ValueError`. `netlocOk` are the
    network locations that pass `_check_bracketed_host` and `_checknetloc`. -/
def urlsplit (netlocOk : Text → Bool) (url : Text) : Option SplitResult :=
  let (scheme, rest) := splitScheme (cleaned url)
  let (netloc, rest) := splitNetloc rest
  if netloc.contains '[' ≠ netloc.contains ']' || !netlocOk netloc then none
  else
    let (rest, fragment) := cut '#' rest
    let (path, query) := cut '?' rest
    some { scheme, netloc, path, query := query.getD [], fragment := fragment.getD [] }

namespace SplitResult

/-- `_hostinfo`: the host and the port as they are written. -/
def hostinfo (r : SplitResult) : Text × Text :=
  let hostinfo := afterLast '@' r.netloc
  match cut '[' hostinfo with
  | (_, some bracketed) =>
      let (hostname, port) := cut ']' bracketed
      (hostname, ((cut ':' (port.getD [])).2).getD [])
  | (_, none) =>
      let (hostname, port) := cut ':' hostinfo
      (hostname, port.getD [])

/-- `hostname`, apart from the case of its letters. -/
def hostname (r : SplitResult) : Option Text :=
  if r.hostinfo.1.isEmpty then none else some r.hostinfo.1

def isDigit (c : Char) : Bool := '0' ≤ c && c ≤ '9'

/-- `port`, or `none` where it raises a `ValueError`. -/
def port (r : SplitResult) : Option (Option Nat) :=
  let digits := r.hostinfo.2
  if digits.isEmpty then some none
  else if digits.all isDigit then
    let n := digits.foldl (fun n c => 10 * n + (c.toNat - '0'.toNat)) 0
    if n ≤ 65535 then some (some n) else none
  else none

end SplitResult

/-! ### Parameters -/

/-- What follows the last slash of a path, with what is before it. -/
def splitLast : Text × Text :=
  let last := afterLast '/' path
  (path.take (path.length - last.length), last)

theorem splitLast_append : (splitLast path).1 ++ (splitLast path).2 = path ∧
    '/' ∉ (splitLast path).2 ∧
    ((splitLast path).1 = [] ∨ ∃ u, (splitLast path).1 = u ++ ['/']) := by
  rcases afterLast_append '/' path with ⟨before, happ, hbef⟩
  have htake : (splitLast path).1 = before := by
    change path.take (path.length - (afterLast '/' path).length) = before
    have hlen := congrArg List.length happ
    rw [List.length_append] at hlen
    rw [hlen, Nat.add_sub_cancel]
    conv_lhs => rw [happ]
    exact List.take_left
  refine ⟨?_, notMem_afterLast '/' path, ?_⟩
  · rw [htake]
    exact happ.symm
  · rw [htake]
    exact hbef

/-- `_splitparams`: the first semicolon of the last segment ends the path. -/
def splitParams : Text × Option Text :=
  let (before, last) := splitLast path
  let (base, params) := cut ';' last
  (before ++ base, params)

/-! ### Queries -/

/-- `parse_qs(query).get(name, [])`, in which fields without a value are left out. -/
def parseQs (query name : Text) : List Text :=
  (query.splitOn '&').filterMap fun field =>
    let (key, value) := cut '=' field
    match value with
    | none | some [] => none
    | some value =>
        let plain := fun s : Text => unquote (s.map fun c => if c = '+' then ' ' else c)
        if plain key = name then some (plain value) else none

/-! ### Segments -/

/-- The segments of a path, without those that are empty. -/
def segments : List Text := (path.splitOn '/').filter fun part => !part.isEmpty

def segment (last : Text) : List Text := if last.isEmpty then [] else [last]

theorem segments_of_noSlash {last : Text} (h : '/' ∉ last) : segments last = segment last := by
  rw [segments, List.splitOn_eq_singleton h, segment]
  cases last with
  | nil | cons c rest => rfl

theorem segments_append_slash (u last : Text) (h : '/' ∉ last) :
    segments (u ++ '/' :: last) = segments u ++ segment last := by
  rw [segments, List.splitOn_append_cons_self, List.filter_append, ← segments_of_noSlash h]
  rfl

theorem segments_append {before last : Text} (hbef : before = [] ∨ ∃ u, before = u ++ ['/'])
    (h : '/' ∉ last) : segments (before ++ last) = segments before ++ segment last := by
  rcases hbef with rfl | ⟨u, rfl⟩
  · rw [List.nil_append, segments_of_noSlash h]
    rfl
  · rw [List.append_assoc, List.singleton_append, segments_append_slash u last h,
      segments_append_slash u [] List.not_mem_nil]
    simp [segment]

end Url
