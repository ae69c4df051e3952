import PlexManager.Core.SafeFetch
import Mathlib.Data.List.Forall2

/-!
# Where torrent sources are fetched from

The walk connects to vetted addresses, unless the hop it is at is beneath the
configured indexer. Whether it is, is asked of the path as `urlparse` has it. The
path that is sent is longer by the parameters of the last segment, which end the
last segment of the configured prefix if they stand right behind it, and which may
hide dot segments beside encoded separators. Apart from that, what is trusted is
beneath the prefix.

## Theorems

* `fetch_contained_iff`: Where the walk connects to.
-/

namespace PlexManager

namespace SafeFetch

open Effects TextCodec Url Ip
open TorrentSource (QbittorrentError)

/-! ### What is relied on -/

/-- A segment as it is sent: what must be is escaped in it, and nothing that is
    not. -/
structure Quotes (written sent : Text) : Prop where
  bytes : unquoteToBytes sent = unquoteToBytes written
  plain : written.all isPathChar = true ∨ sent.all isPathChar = true → sent = written

/-- What is relied on of `httpx`: a path without dot segments is sent segment by
    segment, the text of a URL has its path, and a host that can be spelled out is
    there. -/
structure Httpx.Documented (httpx : Httpx) (netlocOk : Text → Bool) : Prop where
  quoted : ∀ url u parsed, httpx.url url = some u → u.rawHost ≠ [] →
    urlsplit netlocOk url = some parsed →
    (∀ part ∈ segments parsed.path, part ≠ ['.'] ∧ part ≠ ['.', '.']) →
    List.Forall₂ Quotes (segments parsed.path) (segments u.path)
  kept : ∀ url u port service, httpx.url url = some u → u.rawHost ≠ [] → u.query = [] →
    u.fragment = [] →
    urlsplit netlocOk ((httpx.str u port).rdropWhile (· = '/')) = some service →
    segments service.path = segments u.path
  hosted : ∀ u host, httpx.host u = some host → host ≠ [] → u.rawHost ≠ []

/-! ### Where a connection may go -/

def isSeparator (b : UInt8) : Bool := b = 0x2F || b = 0x5C

def isDot (bytes : Bytes) : Bool := bytes = [0x2E] || bytes = [0x2E, 0x2E]

/-- A segment is a dot segment, is decoded to one, or hides one beside a
    separator. -/
def Dotted (part : Text) : Prop :=
  ∃ piece ∈ (unquoteToBytes part).splitOnP isSeparator, isDot piece = true

/-- A path starts with the segments of a prefix and is not led out of it. -/
structure Beneath (pathPrefix : List Text) (path : Text) : Prop where
  starts : pathPrefix <+: segments path
  stays : ∀ part ∈ segments path, ¬ Dotted part

/-- A connection goes to a vetted address, or to the configured indexer for a path
    beneath its prefix. -/
def Contained (trusted : Option TrustedSource) (address : IpAddress) (request : Request) : Prop :=
  isBlockedIp address = false ∨ ∃ t, trusted = some t ∧
    request.host.map Char.toLower = t.origin.host ∧ request.port = t.origin.port ∧
    Beneath t.pathPrefix request.path

/-- The parameters of a path do not stand right behind the prefix, and no dot
    segment stands behind a separator in them. -/
def HarmlessParams (pathPrefix : List Text) (path : Text) : Prop :=
  ∀ params, (splitParams path).2 = some params →
    ((cut ';' (splitLast path).2).1 = [] ∨ segments (splitParams path).1 ≠ pathPrefix) ∧
    ∀ piece ∈ ((unquoteToBytes params).splitOnP isSeparator).tail, isDot piece = false

/-! ### Segments that are not ambiguous -/

variable {c : Char} {part path base : Text} {request : Request} {α : Type} {pathPrefix : List Text}
  {n : Nat} {t : TrustedSource} {netlocOk : Text → Bool}

theorem char_of_toNat {d : Char} (h : c.toNat = d.toNat) : c = d :=
  Char.ext (UInt32.toNat_inj.mp h)

-- The ligatures that fold to several letters are no digits.
theorem casefold_of_hexDigit (h : hexDigit c = some n) : casefold c = [hexChar n] := by
  have hdig : (hexDigit c).isSome = true := by rw [h, Option.isSome_some]
  rw [hexChar_of_hexDigit h]
  unfold casefold
  split <;> first | exact absurd hdig (by decide) | rfl

theorem casefold_escape {high low : Char} {m : Nat} (hhigh : hexDigit high = some m)
    (hlow : hexDigit low = some n) (rest : Text) :
    ('%' :: high :: low :: rest).flatMap casefold =
      '%' :: hexChar m :: hexChar n :: rest.flatMap casefold := by
  rw [List.flatMap_cons, List.flatMap_cons, List.flatMap_cons, casefold_of_hexDigit hhigh,
    casefold_of_hexDigit hlow]
  rfl

-- An escaped byte shows as its two digits once the case is folded.
theorem infix_casefold {u v : Text} {high low : Char} {m : Nat}
    (h : part = u ++ '%' :: high :: low :: v) (hhigh : hexDigit high = some m)
    (hlow : hexDigit low = some n) : ['%', hexChar m, hexChar n] <:+: part.flatMap casefold := by
  rw [h, List.flatMap_append, casefold_escape hhigh hlow]
  exact ⟨u.flatMap casefold, v.flatMap casefold, by simp⟩

structure Clear (part : Text) : Prop where
  form : part.flatMap casefold ∉ ambiguousPathSegmentForms
  slash : ¬ "%2f".toList <:+: part.flatMap casefold
  backslash : ¬ "%5c".toList <:+: part.flatMap casefold
  literal : '\\' ∉ part

theorem clear_of_not_ambiguous (h : isAmbiguous part = false) : Clear part := by
  simp only [isAmbiguous, Bool.or_eq_false_iff, decide_eq_false_iff_not] at h
  rcases h with ⟨⟨⟨hform, hslash⟩, hbackslash⟩, hliteral⟩
  refine ⟨?_, hslash, hbackslash, ?_⟩
  · simpa using hform
  · simpa using hliteral

theorem Clear.noSeparator (h : Clear part) (hslash : '/' ∉ part) :
    ∀ b ∈ unquoteToBytes part, isSeparator b = false := by
  intro b hb
  by_contra hsep
  simp only [isSeparator, Bool.not_eq_false, Bool.or_eq_true, decide_eq_true_eq] at hsep
  rcases hsep with rfl | rfl
  · rcases mem_unquoteToBytes (by decide) part hb with
      ⟨c, hc, heq⟩ | ⟨u, high, low, v, heq, hhigh, hlow⟩
    · rw [char_of_toNat (d := '/') heq] at hc
      exact hslash hc
    · exact h.slash (infix_casefold heq hhigh hlow)
  · rcases mem_unquoteToBytes (by decide) part hb with
      ⟨c, hc, heq⟩ | ⟨u, high, low, v, heq, hhigh, hlow⟩
    · rw [char_of_toNat (d := '\\') heq] at hc
      exact h.literal hc
    · exact h.backslash (infix_casefold heq hhigh hlow)

-- What decodes to a dot is a dot or its escape.
theorem dot_of_unquote {bytes : Bytes} (h : unquoteToBytes part = 0x2E :: bytes) :
    ∃ rest, unquoteToBytes rest = bytes ∧
      (part.flatMap casefold = '.' :: rest.flatMap casefold ∨
        part.flatMap casefold = '%' :: '2' :: 'e' :: rest.flatMap casefold) := by
  rcases unquoteToBytes_eq_cons (by decide) h with
    ⟨c, rest, rfl, heq, hrest⟩ | ⟨high, low, rest, rfl, hhigh, hlow, hrest⟩
  · rw [char_of_toNat (d := '.') heq]
    exact ⟨rest, hrest, .inl rfl⟩
  · exact ⟨rest, hrest, .inr (casefold_escape hhigh hlow rest)⟩

theorem Clear.notDot (h : Clear part) : isDot (unquoteToBytes part) = false := by
  by_contra hdot
  simp only [isDot, Bool.not_eq_false, Bool.or_eq_true, decide_eq_true_eq] at hdot
  apply h.form
  rcases hdot with hone | htwo
  · rcases dot_of_unquote hone with ⟨rest, hrest, hfold⟩
    obtain rfl := unquoteToBytes_eq_nil hrest
    rcases hfold with hfold | hfold
    · rw [hfold]; decide
    · rw [hfold]; decide
  · rcases dot_of_unquote htwo with ⟨rest, hrest, hfold⟩
    rcases dot_of_unquote hrest with ⟨rest', hrest', hfold'⟩
    obtain rfl := unquoteToBytes_eq_nil hrest'
    rcases hfold with hfold | hfold
    · rcases hfold' with hfold' | hfold'
      · rw [hfold, hfold']; decide
      · rw [hfold, hfold']; decide
    · rcases hfold' with hfold' | hfold'
      · rw [hfold, hfold']; decide
      · rw [hfold, hfold']; decide

-- A segment that is not ambiguous neither is nor hides a dot segment.
theorem not_dotted (h : isAmbiguous part = false) (hslash : '/' ∉ part) : ¬ Dotted part := by
  have hclr := clear_of_not_ambiguous h
  rintro ⟨piece, hpiece, hdot⟩
  rw [List.splitOnP_eq_singleton (hclr.noSeparator hslash), List.mem_singleton] at hpiece
  rw [hpiece, hclr.notDot] at hdot
  exact nomatch hdot

/-! ### Paths with parameters -/

theorem forall_mem_splitOnP (f : α → Bool) (xs : List α) :
    ∀ piece ∈ xs.splitOnP f, ∀ x ∈ piece, f x = false := by
  induction xs with
  | nil => simp
  | cons x xs ih =>
    rw [List.splitOnP_cons_eq_if_modifyHead]
    rcases List.exists_cons_of_ne_nil (List.splitOnP_ne_nil f xs) with ⟨first, more, hspl⟩
    rw [hspl] at ih ⊢
    by_cases hx : f x = true
    · rw [if_pos hx]
      intro piece hpiece
      rcases List.mem_cons.mp hpiece with rfl | hpiece
      · simp
      · exact ih piece hpiece
    · rw [if_neg hx, List.modifyHead_cons]
      intro piece hpiece y hy
      rcases List.mem_cons.mp hpiece with rfl | hpiece
      · rcases List.mem_cons.mp hy with rfl | hy
        · exact Bool.not_eq_true _ ▸ hx
        · exact ih first List.mem_cons_self y hy
      · exact ih piece (List.mem_cons_of_mem _ hpiece) y hy

theorem splitOnP_append {f : α → Bool} {xs : List α} (h : ∀ x ∈ xs, f x = false)
    (ys : List α) : (xs ++ ys).splitOnP f = (ys.splitOnP f).modifyHead (xs ++ ·) := by
  induction xs with
  | nil =>
    rcases List.exists_cons_of_ne_nil (List.splitOnP_ne_nil f ys) with ⟨first, more, hspl⟩
    simp [hspl]
  | cons x xs ih =>
    have hx := h x List.mem_cons_self
    rw [List.cons_append, List.splitOnP_cons_eq_if_modifyHead, if_neg (by simp [hx]),
      ih fun y hy => h y (List.mem_cons_of_mem _ hy)]
    rcases List.exists_cons_of_ne_nil (List.splitOnP_ne_nil f ys) with ⟨first, more, hspl⟩
    simp [hspl]

theorem noSlash_of_mem_segments (h : part ∈ segments path) : '/' ∉ part := by
  intro hmem
  have hfalse := forall_mem_splitOnP _ path part (List.mem_of_mem_filter h) '/' hmem
  simp at hfalse

-- What precedes a semicolon is joined to it, so that only what follows a later
-- separator can be a dot segment.
theorem dotted_iff {b params : Text} (hb : ∀ c ∈ unquoteToBytes b, isSeparator c = false) :
    Dotted (b ++ ';' :: params) ↔
      ∃ piece ∈ ((unquoteToBytes params).splitOnP isSeparator).tail, isDot piece = true := by
  unfold Dotted
  rw [unquoteToBytes_append (by decide) (by decide), splitOnP_append hb,
    show String.utf8EncodeChar ';' = [0x3B] from rfl,
    @splitOnP_append _ isSeparator [0x3B] (by simp; decide)]
  rcases List.exists_cons_of_ne_nil (List.splitOnP_ne_nil isSeparator (unquoteToBytes params)) with
    ⟨first, more, hspl⟩
  rw [hspl, List.modifyHead_cons, List.modifyHead_cons, List.tail_cons]
  constructor
  · rintro ⟨piece, hpiece, hdot⟩
    rcases List.mem_cons.mp hpiece with rfl | hpiece
    · have hmem : (0x3B : UInt8) ∈ unquoteToBytes b ++ ([0x3B] ++ first) := by simp
      simp only [isDot, Bool.or_eq_true, decide_eq_true_eq] at hdot
      rcases hdot with hdot | hdot
      · rw [hdot] at hmem
        exact absurd hmem (by decide)
      · rw [hdot] at hmem
        exact absurd hmem (by decide)
    · exact ⟨piece, hpiece, hdot⟩
  · rintro ⟨piece, hpiece, hdot⟩
    exact ⟨piece, List.mem_cons_of_mem _ hpiece, hdot⟩

theorem prefix_append_singleton_iff {pre xs : List α} {x : α} :
    pre <+: xs ++ [x] ↔ pre <+: xs ∨ pre = xs ++ [x] := by
  rw [List.prefix_concat_iff]
  tauto

theorem beneath_params_iff {before b params : Text} (hbef : before = [] ∨ ∃ u, before = u ++ ['/'])
    (hslash : '/' ∉ b ++ ';' :: params) (hbeg : pathPrefix <+: segments (before ++ b))
    (hclr : ∀ part ∈ segments (before ++ b), isAmbiguous part = false) :
    Beneath pathPrefix (before ++ (b ++ ';' :: params)) ↔
      (b = [] ∨ segments (before ++ b) ≠ pathPrefix) ∧
      ∀ piece ∈ ((unquoteToBytes params).splitOnP isSeparator).tail, isDot piece = false := by
  have hb : '/' ∉ b := fun h => hslash (List.mem_append_left _ h)
  have hlast : segments (before ++ (b ++ ';' :: params)) =
      segments before ++ [b ++ ';' :: params] := by
    rw [segments_append hbef hslash]
    cases b with
    | nil | cons c rest => rfl
  have hbase := segments_append hbef hb
  rw [hbase] at hbeg hclr ⊢
  have hbyte : ∀ c ∈ unquoteToBytes b, isSeparator c = false := by
    cases b with
    | nil => simp [unquoteToBytes, tokens]
    | cons c rest =>
      have hpart := hclr (c :: rest) (List.mem_append_right _ List.mem_cons_self)
      exact (clear_of_not_ambiguous hpart).noSeparator hb
  have hstart : pathPrefix <+: segments (before ++ (b ++ ';' :: params)) ↔
      b = [] ∨ segments before ++ segment b ≠ pathPrefix := by
    rw [hlast]
    cases b with
    | nil =>
      rw [Url.segment, List.isEmpty_nil, if_pos rfl, List.append_nil] at hbeg
      exact ⟨fun _ => .inl rfl, fun _ => hbeg.trans (List.prefix_append _ _)⟩
    | cons c rest =>
      have hsegment : segment (c :: rest) = [c :: rest] := rfl
      rcases prefix_append_singleton_iff.mp hbeg with hshort | rfl
      · have hne : segments before ++ [c :: rest] ≠ pathPrefix := by
          rintro rfl
          have hlen := hshort.length_le
          rw [List.length_append, List.length_singleton] at hlen
          omega
        exact ⟨fun _ => .inr hne, fun _ => hshort.trans (List.prefix_append _ _)⟩
      -- The whole prefix is there only without the parameters.
      · constructor
        · intro hall
          have heq := hall.eq_of_length (by simp)
          rw [List.append_cancel_left_eq, List.singleton_inj] at heq
          have hlen := congrArg List.length heq
          simp only [List.length_append, List.length_cons] at hlen
          omega
        · rintro (hnil | hne)
          · cases hnil
          · exact absurd rfl hne
  have hstay : (∀ part ∈ segments (before ++ (b ++ ';' :: params)), ¬ Dotted part) ↔
      ∀ piece ∈ ((unquoteToBytes params).splitOnP isSeparator).tail, isDot piece = false := by
    rw [hlast]
    constructor
    · intro h piece hpiece
      by_contra hdot
      exact h _ (List.mem_append_right _ List.mem_cons_self)
        ((dotted_iff hbyte).mpr ⟨piece, hpiece, Bool.not_eq_false _ ▸ hdot⟩)
    · intro h part hpart
      rcases List.mem_append.mp hpart with hpart | hpart
      · exact not_dotted (hclr part (List.mem_append_left _ hpart)) (noSlash_of_mem_segments hpart)
      · rw [List.mem_singleton.mp hpart, dotted_iff hbyte]
        rintro ⟨piece, hpiece, hdot⟩
        rw [h piece hpiece] at hdot
        cases hdot
  rw [← hstart, ← hstay]
  exact ⟨fun h => ⟨h.starts, h.stays⟩, fun h => ⟨h.1, h.2⟩⟩

-- A path that is trusted for what `urlparse` shows of it is beneath the prefix if and only if
-- its parameters are harmless.
theorem beneath_iff (hbeg : pathPrefix <+: segments (splitParams path).1)
    (hclr : ∀ part ∈ segments (splitParams path).1, isAmbiguous part = false) :
    Beneath pathPrefix path ↔ HarmlessParams pathPrefix path := by
  rcases splitLast_append path with ⟨happ, hslash, hbef⟩
  have hcut := cut_append ';' (splitLast path).2
  have hbase : (splitParams path).1 = (splitLast path).1 ++ (cut ';' (splitLast path).2).1 := rfl
  have hparams : (splitParams path).2 = (cut ';' (splitLast path).2).2 := rfl
  unfold HarmlessParams
  cases hsome : (cut ';' (splitLast path).2).2 with
  | none =>
    rw [hsome, Option.map_none, Option.getD_none, List.append_nil] at hcut
    rw [hbase, ← hcut, happ] at hbeg hclr
    refine ⟨fun _ params h => ?_, fun _ => ⟨hbeg, fun part hpart => ?_⟩⟩
    · rw [hparams, hsome] at h
      exact nomatch h
    · exact not_dotted (hclr part hpart) (noSlash_of_mem_segments hpart)
  | some params =>
    rw [hsome, Option.map_some, Option.getD_some] at hcut
    rw [hbase] at hbeg hclr
    have hiff := beneath_params_iff hbef (hcut ▸ hslash) hbeg hclr
    rw [← hcut, happ] at hiff
    rw [hiff, hbase, hparams, hsome]
    constructor
    · intro h params' heq
      rwa [← Option.some.inj heq]
    · intro h
      exact h params rfl

/-! ### Paths as they are sent -/

theorem prefix_sent_iff {xs ys : List Text} (h : List.Forall₂ Quotes xs ys)
    (hpl : ∀ part ∈ pathPrefix, part.all isPathChar = true) :
    pathPrefix <+: ys ↔ pathPrefix <+: xs := by
  induction h generalizing pathPrefix with
  | nil => rfl
  | @cons x y xs ys hxy _ ih =>
    cases pathPrefix with
    | nil => simp
    | cons part rest =>
      have hpart := hpl part List.mem_cons_self
      have hhead : part = y ↔ part = x := by
        constructor
        · rintro rfl
          exact hxy.plain (.inr hpart)
        · rintro rfl
          exact (hxy.plain (.inl hpart)).symm
      rw [List.cons_prefix_cons, List.cons_prefix_cons, hhead,
        ih fun p hp => hpl p (List.mem_cons_of_mem _ hp)]

theorem eq_of_quotes {xs ys : List Text} (h : List.Forall₂ Quotes xs ys)
    (hpl : ∀ part ∈ xs, part.all isPathChar = true) : ys = xs := by
  induction h with
  | nil => rfl
  | cons hxy _ ih =>
    rw [hxy.plain (.inl (hpl _ List.mem_cons_self)),
      ih fun p hp => hpl p (List.mem_cons_of_mem _ hp)]

theorem beneath_sent_iff {written sent : Text}
    (h : List.Forall₂ Quotes (segments written) (segments sent))
    (hpl : ∀ part ∈ pathPrefix, part.all isPathChar = true) :
    Beneath pathPrefix sent ↔ Beneath pathPrefix written := by
  have hstay : (∀ part ∈ segments sent, ¬ Dotted part) ↔
      ∀ part ∈ segments written, ¬ Dotted part := by
    generalize segments written = xs at h
    generalize segments sent = ys at h
    induction h with
    | nil => rfl
    | @cons x y xs ys hxy _ ih =>
      have hhead : Dotted y ↔ Dotted x := by rw [Dotted, Dotted, hxy.bytes]
      simp only [List.mem_cons, forall_eq_or_imp, hhead, ih]
  constructor
  · intro hsent
    exact ⟨(prefix_sent_iff h hpl).mp hsent.starts, hstay.mp hsent.stays⟩
  · intro hwrit
    exact ⟨(prefix_sent_iff h hpl).mpr hwrit.starts, hstay.mpr hwrit.stays⟩

/-! ### The configured prefix -/

theorem mem_splitOnP_of_mem {f : α → Bool} {x : α} {xs : List α} (h : x ∈ xs)
    (hx : f x = false) : ∃ piece ∈ xs.splitOnP f, x ∈ piece := by
  induction xs with
  | nil => exact absurd h List.not_mem_nil
  | cons y xs ih =>
    rcases List.exists_cons_of_ne_nil (List.splitOnP_ne_nil f xs) with ⟨first, more, hspl⟩
    rw [List.splitOnP_cons_eq_if_modifyHead]
    rw [hspl] at ih ⊢
    by_cases hy : f y = true
    · rw [if_pos hy]
      rcases List.mem_cons.mp h with rfl | h
      · rw [hy] at hx
        exact nomatch hx
      · rcases ih h with ⟨piece, hpiece, hmem⟩
        exact ⟨piece, List.mem_cons_of_mem _ hpiece, hmem⟩
    · rw [if_neg hy, List.modifyHead_cons]
      rcases List.mem_cons.mp h with rfl | h
      · exact ⟨_, List.mem_cons_self, List.mem_cons_self⟩
      · rcases ih h with ⟨piece, hpiece, hmem⟩
        rcases List.mem_cons.mp hpiece with rfl | hpiece
        · exact ⟨_, List.mem_cons_self, List.mem_cons_of_mem _ hmem⟩
        · exact ⟨piece, List.mem_cons_of_mem _ hpiece, hmem⟩

theorem mem_segments_of_mem (h : c ∈ path) (hc : c ≠ '/') : ∃ part ∈ segments path, c ∈ part := by
  have hsep : (c == '/') = false := by simpa using hc
  rcases mem_splitOnP_of_mem (f := fun d => d == '/') h hsep with ⟨part, hpart, hmem⟩
  refine ⟨part, List.mem_filter.mpr ⟨hpart, ?_⟩, hmem⟩
  cases part with
  | nil => exact absurd hmem List.not_mem_nil
  | cons d rest => rfl

theorem splitParams_of_plain (hpl : ∀ part ∈ segments path, part.all isPathChar = true) :
    (splitParams path).1 = path := by
  have hnone : ';' ∉ (splitLast path).2 := by
    intro hmem
    have hpath : ';' ∈ path := by
      rw [← (splitLast_append path).1]
      exact List.mem_append_right _ hmem
    rcases mem_segments_of_mem hpath (by decide) with ⟨part, hpart, hsemi⟩
    exact absurd (List.all_eq_true.mp (hpl part hpart) ';' hsemi) (by decide)
  change (splitLast path).1 ++ (cut ';' (splitLast path).2).1 = path
  rw [notMem_cut ';' _ hnone]
  exact (splitLast_append path).1

/-- The characters a URL is cut at, and those that are removed from it. -/
def isMark (c : Char) : Bool := isUnsafe c || c = '?' || c = '#'

theorem not_mark_of {p : Char → Bool} (h : ['\t', '\r', '\n', '?', '#'].all (!p ·) = true)
    (hc : p c = true) : isMark c = false := by
  by_contra hmark
  simp only [isMark, isUnsafe, Bool.not_eq_false, Bool.or_eq_true, decide_eq_true_eq] at hmark
  have hmem : c ∈ ['\t', '\r', '\n', '?', '#'] := by
    simp only [List.mem_cons, List.not_mem_nil, or_false]
    tauto
  have hnot := List.all_eq_true.mp h c hmem
  rw [hc] at hnot
  exact nomatch hnot

theorem not_mark_of_isPortText {s : Text} (h : isPortText s = true) :
    ∀ c ∈ s, isMark c = false := by
  simp only [isPortText, Bool.and_eq_true, List.all_eq_true] at h
  intro c hc
  exact not_mark_of (p := fun c => '0' ≤ c && c ≤ '9') (by decide) (by simpa using h.2 c hc)

theorem not_mark_of_isAuthority {s : Text} (h : isAuthority s = true) :
    ∀ c ∈ s, isMark c = false := by
  unfold isAuthority at h
  split at h
  · rename_i rest
    have hcut := cut_append ']' rest
    simp only [Bool.and_eq_true, List.all_eq_true] at h
    rcases h with ⟨⟨-, hhost⟩, haft⟩
    intro c hc
    rcases List.mem_cons.mp hc with rfl | hc
    · decide
    rw [hcut] at hc
    rcases List.mem_append.mp hc with hc | hc
    · exact not_mark_of (p := fun c => (hexDigit c).isSome || c = ':' || c = '.') (by decide)
        (hhost c hc)
    split at haft
    · rename_i hnone
      rw [hnone] at hc
      have hbracket : c = ']' := by simpa using hc
      rw [hbracket]
      decide
    · rename_i port hport
      rw [hport] at hc
      rcases List.mem_cons.mp hc with rfl | hc
      · decide
      · rcases List.mem_cons.mp hc with rfl | hc
        · decide
        · exact not_mark_of_isPortText haft c hc
    · exact nomatch haft
  · have hcut := cut_append ':' s
    simp only [Bool.and_eq_true, List.all_eq_true] at h
    rcases h with ⟨⟨-, hhost⟩, hport⟩
    intro c hc
    rw [hcut] at hc
    rcases List.mem_append.mp hc with hc | hc
    · exact not_mark_of (by decide) (hhost c hc)
    cases hsome : (cut ':' s).2 with
    | none =>
      rw [hsome] at hc
      exact absurd hc List.not_mem_nil
    | some port =>
      rw [hsome] at hc hport
      rcases List.mem_cons.mp hc with rfl | hc
      · decide
      · exact not_mark_of_isPortText hport c hc

theorem isPathChar_of_segment (h : isPathSegment part = true) :
    part.all isPathChar = true ∧ part ≠ ['.'] ∧ part ≠ ['.', '.'] := by
  simp only [isPathSegment, Bool.and_eq_true, decide_eq_true_eq, ne_eq, Bool.not_eq_true']
    at h
  exact ⟨h.1.1.2, by simpa using h.1.2, by simpa using h.2⟩

theorem segments_of_isServicePath (h : isServicePath path = true)
    (hslash : path = [] ∨ ∃ rest, path = '/' :: rest) :
    ∀ part ∈ segments path, isPathSegment part = true := by
  intro part hpart
  rcases hslash with rfl | ⟨rest, rfl⟩
  · rw [show segments [] = [] by decide] at hpart
    exact absurd hpart List.not_mem_nil
  rw [segments, List.mem_filter, List.splitOn_cons_eq_if_modifyHead, if_pos (by decide)] at hpart
  rw [isServicePath, List.splitOn_cons_eq_if_modifyHead, if_pos (by decide), List.tail_cons,
    Bool.and_eq_true, List.all_eq_true] at h
  rcases hpart with ⟨hmem, hne⟩
  rcases List.mem_cons.mp hmem with rfl | hmem
  · exact absurd hne (by decide)
  rcases List.eq_nil_or_concat (rest.splitOn '/') with hnil | ⟨front, last, hfr⟩
  · exact absurd hnil (List.splitOn_ne_nil _ _)
  rw [hfr, List.concat_eq_append] at h hmem
  rw [List.dropLast_concat, List.getLast?_concat, Option.all_some] at h
  rcases List.mem_append.mp hmem with hmem | hmem
  · exact h.1 part hmem
  rw [List.mem_singleton.mp hmem] at hne ⊢
  have hlast := h.2
  rw [Bool.or_eq_true] at hlast
  rcases hlast with hempty | hsegment
  · rw [hempty] at hne
    cases hne
  · exact hsegment

theorem cleaned_of_not_mark {rest : Text} (hc : isC0OrSpace c = false)
    (h : ∀ d ∈ c :: rest, isMark d = false) : cleaned (c :: rest) = c :: rest := by
  rw [cleaned, List.dropWhile_cons_of_neg (by simp [hc]), List.filter_eq_self]
  intro d hd
  have hmark := h d hd
  simp only [isMark, Bool.or_eq_false_iff] at hmark
  simp [hmark.1.1]

theorem isLetter_of_toLower (h : c.toLower ∈ http ∨ c.toLower ∈ https) : isLetter c = true := by
  have hmem : c.toLower ∈ https := by
    rcases h with h | h
    · exact List.mem_append_left ['s'] h
    · exact h
  unfold Char.toLower at hmem
  split at hmem
  · rename_i hupper
    have hhigh : c.val.toNat ≤ 90 := UInt32.le_iff_toNat_le.mp hupper.2
    have hascii : isAscii c = true := by
      simp only [isAscii, decide_eq_true_eq]
      change c.val.toNat < 128
      omega
    have halpha : c.isAlpha = true := (Bool.or_eq_true ..).mpr (.inl (decide_eq_true hupper))
    rw [isLetter, hascii, halpha]
    rfl
  · exact List.all_eq_true.mp (show https.all isLetter = true by decide) c hmem

theorem isSchemeChar_of_isLetter (h : isLetter c = true) : isSchemeChar c = true := by
  simp only [isLetter, Bool.and_eq_true] at h
  simp [isSchemeChar, h.1, Char.isAlphanum, h.2]

theorem not_C0OrSpace_of_isLetter (h : isLetter c = true) : isC0OrSpace c = false := by
  simp only [isLetter, Bool.and_eq_true] at h
  simp only [isC0OrSpace, decide_eq_false_iff_not, Nat.not_le]
  change 0x20 < c.val.toNat
  rcases (Bool.or_eq_true ..).mp h.2 with hupper | hlower
  · have hlow : 65 ≤ c.val.toNat := UInt32.le_iff_toNat_le.mp (of_decide_eq_true hupper).1
    omega
  · have hlow : 97 ≤ c.val.toNat :=
      UInt32.le_iff_toNat_le.mp (of_decide_eq_true ((Bool.and_eq_true ..).mp hlower).1)
    omega

theorem span_netloc {authority : Text} (h : ∀ c ∈ authority, isMark c = false)
    (hslash : ∀ c ∈ authority, c ≠ '/') (hpath : path = [] ∨ ∃ rest, path = '/' :: rest) :
    (authority ++ path).span (fun c => c ≠ '/' && c ≠ '?' && c ≠ '#') = (authority, path) := by
  have hall : ∀ c ∈ authority, (c ≠ '/' && c ≠ '?' && c ≠ '#') = true := by
    intro c hc
    have hmark := h c hc
    simp only [isMark, Bool.or_eq_false_iff, decide_eq_false_iff_not] at hmark
    simp [hslash c hc, hmark.1.2, hmark.2]
  have hnone : path.takeWhile (fun c => c ≠ '/' && c ≠ '?' && c ≠ '#') = [] ∧
      path.dropWhile (fun c => c ≠ '/' && c ≠ '?' && c ≠ '#') = path := by
    rcases hpath with rfl | ⟨rest, rfl⟩
    · exact ⟨rfl, rfl⟩
    · exact ⟨rfl, rfl⟩
  rw [List.span_eq_takeWhile_dropWhile, List.takeWhile_append_of_pos hall,
    List.dropWhile_append_of_pos hall, hnone.1, hnone.2, List.append_nil]

-- The path that `urlsplit` finds in a text the pattern accepts is the one the pattern
-- describes.
theorem urlsplit_of_isServiceUrl {value : Text} {parsed : SplitResult}
    (h : isServiceUrl value = true) (hprs : urlsplit netlocOk value = some parsed) :
    ∀ part ∈ segments parsed.path, isPathSegment part = true := by
  unfold isServiceUrl at h
  split at h
  · rename_i scheme rest hcut
    simp only [Bool.and_eq_true, Bool.or_eq_true, decide_eq_true_eq] at h
    rcases h with ⟨⟨hsch, hauth⟩, hpath⟩
    have hval := cut_append ':' value
    rw [hcut] at hval
    change value = scheme ++ ':' :: '/' :: '/' :: rest at hval
    have hspl := List.takeWhile_append_dropWhile (p := fun c => decide (c ≠ '/')) (l := rest)
    have hslash : ∀ c ∈ rest.takeWhile (· ≠ '/'), c ≠ '/' := by
      intro c hc
      simpa using List.mem_takeWhile_imp hc
    have hhead : rest.dropWhile (· ≠ '/') = [] ∨
        ∃ more, rest.dropWhile (· ≠ '/') = '/' :: more := by
      cases hdrop : rest.dropWhile (· ≠ '/') with
      | nil => exact .inl rfl
      | cons c more =>
        have hfst := List.head?_dropWhile_not (fun c => decide (c ≠ '/')) rest
        rw [hdrop] at hfst
        have hc : c = '/' := by simpa using hfst
        exact .inr ⟨more, by rw [hc]⟩
    revert hauth hpath hslash hhead
    rw [← hspl] at hval hcut
    generalize rest.takeWhile (· ≠ '/') = authority at hval hcut ⊢
    generalize rest.dropWhile (· ≠ '/') = path at hval hcut ⊢
    intro hpath hauth hslash hhead
    have hseg := segments_of_isServicePath hpath hhead
    have hmarkPath : ∀ c ∈ path, isMark c = false := by
      intro c hc
      by_cases hne : c = '/'
      · rw [hne]; decide
      · rcases mem_segments_of_mem hc hne with ⟨part, hpart, hmem⟩
        have hall := (isPathChar_of_segment (hseg part hpart)).1
        exact not_mark_of (by decide) (List.all_eq_true.mp hall c hmem)
    have hlet : ∀ c ∈ scheme, isLetter c = true := by
      intro c hc
      have hlow := List.mem_map_of_mem (f := Char.toLower) hc
      rcases hsch with hsch | hsch
      · rw [hsch] at hlow
        exact isLetter_of_toLower (.inl hlow)
      · rw [hsch] at hlow
        exact isLetter_of_toLower (.inr hlow)
    have hmark : ∀ c ∈ value, isMark c = false := by
      intro c hc
      rw [hval] at hc
      simp only [List.mem_append, List.mem_cons] at hc
      rcases hc with hc | rfl | rfl | rfl | hc | hc
      · exact not_mark_of (by decide) (hlet c hc)
      · decide
      · decide
      · decide
      · exact not_mark_of_isAuthority hauth c hc
      · exact hmarkPath c hc
    cases scheme with
    | nil =>
      rcases hsch with hsch | hsch
      · exact nomatch hsch
      · exact nomatch hsch
    | cons first more =>
      -- Nothing is removed, and every cut falls where the pattern has it.
      have hcleaned : cleaned value = value := by
        rw [hval] at hmark ⊢
        exact cleaned_of_not_mark (not_C0OrSpace_of_isLetter (hlet first List.mem_cons_self)) hmark
      have hsplitScheme : splitScheme value =
          ((first :: more).map Char.toLower, '/' :: '/' :: (authority ++ path)) := by
        have hall : (first :: more).all isSchemeChar = true :=
          List.all_eq_true.mpr fun c hc => isSchemeChar_of_isLetter (hlet c hc)
        rw [splitScheme, hcut]
        simp only [List.head?_cons, Option.any_some, hlet first List.mem_cons_self, hall,
          Bool.and_self, if_true]
      have hnetloc : splitNetloc ('/' :: '/' :: (authority ++ path)) = (authority, path) :=
        span_netloc (not_mark_of_isAuthority hauth) hslash hhead
      have hhash : '#' ∉ path := fun hmem => absurd (hmarkPath _ hmem) (by decide)
      have hq : '?' ∉ path := fun hmem => absurd (hmarkPath _ hmem) (by decide)
      unfold urlsplit at hprs
      simp only [hcleaned, hsplitScheme, hnetloc, notMem_cut _ _ hhash, notMem_cut _ _ hq]
        at hprs
      split at hprs
      · exact nomatch hprs
      cases hprs
      exact hseg
  · exact nomatch h

theorem dots_of_clear (hclr : ∀ part ∈ segments (splitParams path).1, isAmbiguous part = false) :
    ∀ part ∈ segments path, part ≠ ['.'] ∧ part ≠ ['.', '.'] := by
  rcases splitLast_append path with ⟨happ, hslash, hbef⟩
  have hcut := cut_append ';' (splitLast path).2
  have hbase : (splitParams path).1 = (splitLast path).1 ++ (cut ';' (splitLast path).2).1 := rfl
  have hnotDot : ∀ part, isAmbiguous part = false → part ≠ ['.'] ∧ part ≠ ['.', '.'] := by
    intro part hpart
    refine ⟨?_, ?_⟩
    · rintro rfl
      exact absurd hpart (by decide)
    · rintro rfl
      exact absurd hpart (by decide)
  intro part hpart
  cases hsome : (cut ';' (splitLast path).2).2 with
  | none =>
    rw [hsome, Option.map_none, Option.getD_none, List.append_nil] at hcut
    rw [hbase, ← hcut, happ] at hclr
    exact hnotDot part (hclr part hpart)
  | some params =>
    rw [hsome, Option.map_some, Option.getD_some] at hcut
    have hb : '/' ∉ (cut ';' (splitLast path).2).1 := fun hmem => hslash (by
      rw [hcut]
      exact List.mem_append_left _ hmem)
    rw [hbase, segments_append hbef hb] at hclr
    rw [← happ, segments_append hbef hslash] at hpart
    rcases List.mem_append.mp hpart with hpart | hpart
    · exact hnotDot part (hclr part (List.mem_append_left _ hpart))
    have hsemi : ';' ∈ part := by
      rw [Url.segment] at hpart
      split at hpart
      · exact absurd hpart List.not_mem_nil
      rw [List.mem_singleton.mp hpart, hcut]
      exact List.mem_append_right _ List.mem_cons_self
    refine ⟨?_, ?_⟩
    · rintro rfl
      exact absurd hsemi (by decide)
    · rintro rfl
      exact absurd hsemi (by decide)

section Trusted

variable {httpx : Httpx} {netlocOk : Text → Bool}

theorem segments_of_parse (hdoc : httpx.Documented netlocOk) {value : Text} {service : SplitResult}
    (h : ServiceUrl.parse httpx netlocOk value = some base)
    (hserv : urlsplit netlocOk base = some service) :
    ∀ part ∈ segments service.path, part.all isPathChar = true := by
  unfold ServiceUrl.parse at h
  split at h
  · exact nomatch h
  rename_i hpattern
  rw [Bool.not_eq_true', Bool.not_eq_false] at hpattern
  split at h
  · rename_i written u hwrit hurl
    split at h
    · rename_i splitPort host hport hhost
      split at h
      · exact nomatch h
      rename_i hparts
      split at h
      · exact nomatch h
      simp only [not_or, ne_eq, not_not] at hparts
      rcases hparts with ⟨-, hne, -, -, hq, hfragment⟩
      cases h
      have hrawHost := hdoc.hosted u host hhost hne
      have hseg := urlsplit_of_isServiceUrl hpattern hwrit
      have hquot := hdoc.quoted value u written hurl hrawHost hwrit
        fun part hpart => (isPathChar_of_segment (hseg part hpart)).2
      have hpl : ∀ part ∈ segments written.path, part.all isPathChar = true :=
        fun part hpart => (isPathChar_of_segment (hseg part hpart)).1
      rw [hdoc.kept value u _ service hurl hrawHost hq hfragment hserv,
        eq_of_quotes hquot hpl]
      exact hpl
    · exact nomatch h
  · exact nomatch h

theorem plain_of_trustedSource (hdoc : httpx.Documented netlocOk)
    (h : trustedSource httpx netlocOk base = some t) :
    ∀ part ∈ t.pathPrefix, part.all isPathChar = true := by
  unfold trustedSource at h
  split at h
  · exact nomatch h
  split at h
  · exact nomatch h
  rename_i service hprs
  split at h
  · rename_i origin path horig hpath
    cases h
    rcases Option.map_eq_some_iff.mp hpath with ⟨parsed, hparsed, rfl⟩
    have hpl := segments_of_parse hdoc hprs hparsed
    rwa [splitParams_of_plain hpl]
  · exact nomatch h

theorem trusted_inv {trusted : Option TrustedSource} {url : Text}
    (h : isTrustedSourceUrl httpx netlocOk trusted url = true) : ∃ t parsed u,
      trusted = some t ∧ urlsplit netlocOk url = some parsed ∧ httpx.url url = some u ∧
      u.rawHost ≠ [] ∧ t.pathPrefix <+: segments (splitParams parsed.path).1 ∧
      ∀ part ∈ segments (splitParams parsed.path).1, isAmbiguous part = false := by
  unfold isTrustedSourceUrl at h
  split at h
  · rename_i t origin parts hsrc
    rw [Bool.and_eq_true] at h
    unfold sourceOriginAndPath at hsrc
    split at hsrc
    · rename_i origin' path horig hpath
      dsimp only at hsrc
      split at hsrc
      · exact nomatch hsrc
      rename_i hclr
      have heq := Option.some.inj hsrc
      injection heq with horig' hparts
      rcases Option.map_eq_some_iff.mp hpath with ⟨parsed, hprs, rfl⟩
      unfold sourceOriginTriple at horig
      rw [hprs] at horig
      dsimp only at horig
      split at horig
      · exact nomatch horig
      split at horig
      · rename_i port u hport hurl
        split at horig
        · exact nomatch horig
        rename_i hhost
        refine ⟨t, parsed, u, rfl, hprs, hurl, ?_, ?_, ?_⟩
        · rintro hnil
          rw [hnil] at hhost
          exact hhost rfl
        · rw [hparts]
          exact List.isPrefixOf_iff_prefix.mp h.2
        · intro part hpart
          rw [Bool.not_eq_true, List.any_eq_false] at hclr
          simpa using hclr part hpart
      · exact nomatch horig
    · exact nomatch hsrc
  · exact nomatch h

-- The URL that `httpx` has for a text has no dot segments left out of the text, so what is
-- sent to a trusted hop is beneath the prefix if and only if the parameters are harmless.
theorem beneath_of_trusted_iff (hdoc : httpx.Documented netlocOk)
    (ht : trustedSource httpx netlocOk base = some t)
    (htrust : isTrustedSourceUrl httpx netlocOk (some t) request.url = true)
    (hbld : buildRequest httpx request.url = .ok request) :
    Beneath t.pathPrefix request.path ↔ ∀ parsed, urlsplit netlocOk request.url = some parsed →
      HarmlessParams t.pathPrefix parsed.path := by
  rcases trusted_inv htrust with ⟨t', parsed, u, ht', hprs, hurl, hhost, hbeg, hclr⟩
  cases ht'
  have hpath : request.path = u.path := by
    unfold buildRequest at hbld
    rw [hurl] at hbld
    dsimp only at hbld
    split at hbld
    · exact nomatch hbld
    split at hbld
    · exact nomatch hbld
    rw [← Except.ok.inj hbld]
  have hdots := dots_of_clear hclr
  have hquot := hdoc.quoted request.url u parsed hurl hhost hprs hdots
  rw [← hpath] at hquot
  rw [beneath_sent_iff hquot (plain_of_trustedSource hdoc ht), beneath_iff hbeg hclr]
  constructor
  · intro h parsed' hprs'
    rw [hprs] at hprs'
    rwa [← Option.some.inj hprs']
  · intro h
    exact h parsed hprs

end Trusted

/-! ### The grant -/

/-- What the backend goes through. -/
inductive BackendEvent where
  | note (grant : HopTrust)
  | connect (host : Text) (port : Nat)

/-- What is left in the backend after some events. -/
def hopTrustAfter (hopTrust : HopTrust) (events : List BackendEvent) : HopTrust :=
  events.foldl (fun hopTrust event => match event with
    | .note grant => noteHopTrust grant hopTrust
    | .connect host port => (takeHopTrust hopTrust host port).2) hopTrust

-- A connection is granted if and only if a grant for just its host and port was noted, and
-- nothing happened since.
theorem takeHopTrust_iff (before : List BackendEvent) (host : Text) (port : Nat) :
    (takeHopTrust (hopTrustAfter none before) host port).1 = true ↔
      ∃ earlier, before = earlier ++ [.note (some (host.map Char.toLower, port))] := by
  rcases List.eq_nil_or_concat before with rfl | ⟨earlier, event, rfl⟩
  · simp [takeHopTrust, hopTrustAfter]
  rw [hopTrustAfter, List.concat_eq_append, List.foldl_append]
  cases event with
  | note grant =>
    constructor
    · intro h
      have hgrant : grant = some (host.map Char.toLower, port) := of_decide_eq_true h
      exact ⟨earlier, by rw [hgrant]⟩
    · rintro ⟨earlier', heq⟩
      have hlast := List.append_inj_right' heq rfl
      injection hlast with hev
      injection hev with hgrant
      exact decide_eq_true hgrant
  | connect host' port' =>
    constructor
    · intro h
      simp [takeHopTrust] at h
    · rintro ⟨earlier', heq⟩
      have hlast := List.append_inj_right' heq rfl
      injection hlast with hev
      exact nomatch hev

/-! ### The walk -/

section Walk

variable (httpx : Httpx) (netlocOk : Text → Bool) (urljoin : Text → Text → Option Text)
variable (trusted : Option TrustedSource) {P : Op → Prop}

/-- A connection is opened for the request for a URL, and to an address that is
    blocked only if the URL is trusted and its grant is for the connection. -/
def Vetted (op : Op) : Prop :=
  ∀ address request, op = .connectTcp address request →
    buildRequest httpx request.url = .ok request ∧
    (isBlockedIp address = false ∨
      (isTrustedSourceUrl httpx netlocOk trusted request.url = true ∧
        ∃ t, trusted = some t ∧
          (t.origin.host, t.origin.port) = (request.host.map Char.toLower, request.port)))

def grantOf (current : Text) : HopTrust :=
  if isTrustedSourceUrl httpx netlocOk trusted current then
    trusted.map fun t => (t.origin.host, t.origin.port) else none

theorem asks_connectFirst {addresses : List IpAddress}
    (h : ∀ address ∈ addresses, P (.connectTcp address request)) :
    (connectFirst request addresses).Asks P := by
  induction addresses with
  | nil => exact Run.asks_raise _
  | cons address rest ih =>
    refine (Run.asks_perform (h address List.mem_cons_self)).bind fun answer => ?_
    cases answer with
    | connected => exact Run.asks_pure _
    | refused => exact ih fun a ha => h a (List.mem_cons_of_mem _ ha)
    | failed => exact Run.asks_raise _

theorem asks_vetted {allowBlocked : Bool}
    (h : ∀ address, (isBlockedIp address = false ∨ allowBlocked = true) →
      P (.connectTcp address request)) (infos : Option (List IpAddress)) :
    (vetted allowBlocked infos >>= connectFirst request).Asks P := by
  cases infos with
  | none => exact fun _ => trivial
  | some addresses =>
    by_cases hbad : (addresses.isEmpty || (!allowBlocked && addresses.any isBlockedIp)) = true
    · rw [vetted, if_pos hbad]
      exact fun _ => trivial
    rw [vetted, if_neg hbad]
    have hall : ∀ address ∈ addresses, P (.connectTcp address request) := by
      intro address haddress
      apply h
      cases hmay : allowBlocked with
      | true => exact .inr rfl
      | false =>
        rw [hmay, Bool.not_eq_true, Bool.or_eq_false_iff, Bool.not_false, Bool.true_and,
          List.any_eq_false] at hbad
        exact .inl (by simpa using hbad.2 address haddress)
    exact fun st => asks_connectFirst hall st

theorem asks_connectTcp {current : Text} (hbld : buildRequest httpx current = .ok request)
    (hurl : request.url = current) :
    (connectTcp request (grantOf httpx netlocOk trusted current)).Asks
      (Vetted httpx netlocOk trusted) := by
  have hconnect : ∀ address, (isBlockedIp address = false ∨
      (takeHopTrust (grantOf httpx netlocOk trusted current) request.host request.port).1 = true) →
      Vetted httpx netlocOk trusted (.connectTcp address request) := by
    intro address h address' request' heq
    injection heq with haddress hreq
    subst haddress hreq
    rw [hurl]
    refine ⟨hbld, h.imp_right fun htaken => ?_⟩
    have hgrant : grantOf httpx netlocOk trusted current =
        some (request.host.map Char.toLower, request.port) := of_decide_eq_true htaken
    unfold grantOf at hgrant
    split at hgrant
    · rename_i htrust
      rcases Option.map_eq_some_iff.mp hgrant with ⟨t, ht, hpair⟩
      exact ⟨htrust, t, ht, hpair⟩
    · exact nomatch hgrant
  have haddresses : ∀ allowBlocked,
      allowBlocked = (takeHopTrust (grantOf httpx netlocOk trusted current) request.host
        request.port).1 →
      (safeFetchAddresses request.host request.port allowBlocked >>= connectFirst request).Asks
        (Vetted httpx netlocOk trusted) := by
    intro allowBlocked hmay
    unfold safeFetchAddresses
    split
    · exact fun _ => trivial
    intro st
    have hlook : Vetted httpx netlocOk trusted (.getaddrinfo request.host request.port) :=
      fun _ _ heq => nomatch heq
    exact ⟨hlook, fun infos => asks_vetted (fun address h => hconnect address (hmay ▸ h))
      infos st⟩
  exact haddresses _ rfl none

theorem asks_stream (current : Text) :
    (stream httpx current (grantOf httpx netlocOk trusted current)).Asks
      (Vetted httpx netlocOk trusted) := by
  unfold stream
  cases hbld : buildRequest httpx current with
  | error e => trivial
  | ok request =>
    have hurl : request.url = current := by
      unfold buildRequest at hbld
      split at hbld
      · exact nomatch hbld
      split at hbld
      · exact nomatch hbld
      split at hbld
      · exact nomatch hbld
      rw [← Except.ok.inj hbld]
    rw [Run.ofExcept_ok_bind, Run.bind_apply]
    refine Program.Asks.bind _ _ (asks_connectTcp httpx netlocOk trusted hbld hurl) ?_
    rintro ⟨r, st⟩
    cases r with
    | error e => trivial
    | ok _ =>
      refine ⟨(fun _ _ heq => nomatch heq), fun answer => ?_⟩
      cases answer with
      | none | some response => trivial

theorem enterHop_eq (current : Text) (st : HopTrust) :
    enterHop httpx netlocOk trusted current st =
      .ret (if isTrustedSourceUrl httpx netlocOk trusted current then .ok ()
        else safeFetchShape netlocOk current, grantOf httpx netlocOk trusted current) := by
  cases htrust : isTrustedSourceUrl httpx netlocOk trusted current with
  | true => simp [enterHop, htrust, grantOf, noteHopTrust, bind, Program.bind,
      Run.modifyRecord, pure]
  | false => simp [enterHop, htrust, grantOf, noteHopTrust, bind, Program.bind,
      Run.modifyRecord, Run.ofExcept]

-- Every connection of a walk is vetted, over whatever hops it goes.
theorem asks_walk (hops : Nat) (current : Text) :
    (walk httpx netlocOk urljoin trusted hops current).Asks (Vetted httpx netlocOk trusted) := by
  induction hops generalizing current with
  | zero => exact Run.asks_pure _
  | succ hops ih =>
    intro st
    rw [walk, Run.bind_apply, enterHop_eq, Program.bind]
    generalize (if isTrustedSourceUrl httpx netlocOk trusted current then .ok ()
      else safeFetchShape netlocOk current) = entered
    cases entered with
    | error e => trivial
    | ok _ =>
      dsimp only
      refine Program.Asks.bind _ _ (asks_stream httpx netlocOk trusted current) ?_
      rintro ⟨r, st'⟩
      cases r with
      | error e => trivial
      | ok response =>
        refine (Run.asks_ofExcept (nextOf urljoin current response)).bind (fun next => ?_) st'
        cases next with
        | magnet location | body data | nothing => exact Run.asks_pure _
        | hop url => exact ih url

end Walk

/-- The condition on a hop. -/
def Harmless (netlocOk : Text → Bool) (trusted : Option TrustedSource) (url : Text) : Prop :=
  ∀ t parsed, trusted = some t → urlsplit netlocOk url = some parsed →
    HarmlessParams t.pathPrefix parsed.path

/-- Wherever a walk leads, a connection it opens is contained if and only if its
    address is vetted or the parameters of the hop are harmless. And a grant is for
    the connection that follows on it, to its own host and port, and for no other. -/
theorem fetch_contained_iff (httpx : Httpx) (netlocOk : Text → Bool)
    (hdoc : httpx.Documented netlocOk) (urljoin : Text → Text → Option Text) (base url : Text) :
    (resolveHttpSource httpx netlocOk urljoin base url).Asks (fun op =>
      ∀ address request, op = .connectTcp address request →
        (Contained (trustedSource httpx netlocOk base) address request ↔
          isBlockedIp address = false ∨
            Harmless netlocOk (trustedSource httpx netlocOk base) request.url)) ∧
    ∀ before host port, (takeHopTrust (hopTrustAfter none before) host port).1 = true ↔
      ∃ earlier, before = earlier ++ [.note (some (host.map Char.toLower, port))] := by
  refine ⟨?_, takeHopTrust_iff⟩
  refine (asks_walk httpx netlocOk urljoin _ redirectMaxDepth url).mono ?_
  intro op hop address request heq
  -- A connection is vetted, or goes where the trusted source is.
  rcases hop address request heq with ⟨hbld, hvetted | ⟨htrust, t, ht, hgrant⟩⟩
  · exact ⟨fun _ => .inl hvetted, fun _ => .inl hvetted⟩
  rw [ht] at htrust ⊢
  have hiff := beneath_of_trusted_iff hdoc ht htrust hbld
  injection hgrant with hhost hport
  constructor
  · rintro (hvetted | ⟨t', ht', -, -, hbeneath⟩)
    · exact .inl hvetted
    · cases ht'
      right
      intro t' parsed ht' hprs
      cases ht'
      exact hiff.mp hbeneath parsed hprs
  · rintro (hvetted | hharmless)
    · exact .inl hvetted
    · refine .inr ⟨t, rfl, hhost.symm, hport.symm, hiff.mpr ?_⟩
      intro parsed hprs
      exact hharmless t parsed rfl hprs

/-! ### An indexer on the same machine -/

def localServer : Text := "http://127.0.0.1:9696".toList

def localPaths : List Text :=
  ["/prowlarr", "/prowlarr/1/x.torrent", "/prowlarr;evil", "/prowlarr/x;%2f..%2f..%2fadmin"].map
    String.toList

/-- `httpx` on a few URLs of one server, in whose paths there is nothing to
    escape. -/
def localHttpx : Httpx where
  url text := (localPaths.find? fun path => text = localServer ++ path).map fun path =>
    { scheme := http, userinfo := [], rawHost := "127.0.0.1".toList, port := some 9696, path
      query := [], fragment := [] }
  host u := some u.rawHost
  str u _ := localServer ++ u.path
  buildable _ := true

theorem localHttpx_inv {url : Text} {u : HttpxUrl} (h : localHttpx.url url = some u) :
    u.path ∈ localPaths ∧ url = localServer ++ u.path := by
  rcases Option.map_eq_some_iff.mp h with ⟨path, hpath, rfl⟩
  have hgot := List.find?_some hpath
  exact ⟨List.mem_of_find?_eq_some hpath, of_decide_eq_true hgot⟩

theorem quotes_self (part : Text) : Quotes part part := ⟨rfl, fun _ => rfl⟩

theorem localHttpx_documented : localHttpx.Documented fun _ => true := by
  have hwrit : ∀ path ∈ localPaths,
      (urlsplit (fun _ => true) (localServer ++ path)).map SplitResult.path = some path ∧
      (urlsplit (fun _ => true) ((localServer ++ path).rdropWhile (· = '/'))).map
        SplitResult.path = some path := by decide
  refine ⟨?_, ?_, ?_⟩
  · intro url u parsed hurl _ hprs _
    rcases localHttpx_inv hurl with ⟨hmem, rfl⟩
    have hpath := (hwrit u.path hmem).1
    rw [hprs, Option.map_some, Option.some.injEq] at hpath
    rw [hpath, List.forall₂_same]
    exact fun part _ => quotes_self part
  · intro url u port service hurl _ _ _ hserv
    have hpath := (hwrit u.path (localHttpx_inv hurl).1).2
    change urlsplit (fun _ => true) ((localServer ++ u.path).rdropWhile (· = '/')) = some service
      at hserv
    rw [hserv, Option.map_some, Option.some.injEq] at hpath
    rw [hpath]
  · rintro u host hhost hne hnil
    exact hne ((Option.some.inj hhost).symm.trans hnil)

/-- The walk from a URL of the indexer itself. -/
theorem fetch_local :
    (resolveHttpSource localHttpx (fun _ => true) (fun _ location => some location)
      "http://127.0.0.1:9696/prowlarr".toList
      "http://127.0.0.1:9696/prowlarr/1/x.torrent".toList).Asks (fun op =>
        ∀ address request, op = .connectTcp address request →
          (Contained (trustedSource localHttpx (fun _ => true)
              "http://127.0.0.1:9696/prowlarr".toList) address request ↔
            isBlockedIp address = false ∨
              Harmless (fun _ => true) (trustedSource localHttpx (fun _ => true)
                "http://127.0.0.1:9696/prowlarr".toList) request.url)) :=
  (fetch_contained_iff localHttpx (fun _ => true) localHttpx_documented
    (fun _ location => some location) _ _).1

theorem runs_safeFetchAddresses (host : Text) (port : Nat) (address : IpAddress) (st : HopTrust) :
    (safeFetchAddresses host port true st).Runs [.getaddrinfo host port] (.ok [address], st) := by
  refine Program.Runs.call (show Ans (.getaddrinfo host port) from some [address]) ?_
  exact Program.Runs.ret _

theorem runs_connectFirst (request : Request) (address : IpAddress) (st : HopTrust) :
    (connectFirst request [address] st).Runs [.connectTcp address request] (.ok (), st) := by
  refine Program.Runs.call (show Ans (.connectTcp address request) from .connected) ?_
  exact Program.Runs.ret _

theorem runs_connectTcp {hopTrust : HopTrust} (address : IpAddress)
    (hgrant : hopTrust = some (request.host.map Char.toLower, request.port)) :
    (connectTcp request hopTrust).Runs
      [.getaddrinfo request.host request.port, .connectTcp address request] (.ok (), none) := by
  have htaken : takeHopTrust hopTrust request.host request.port = (true, none) := by
    rw [takeHopTrust, decide_eq_true hgrant]
  refine Run.runs_bind.mpr (.inl ⟨[], hopTrust, hopTrust, _, .ret _, ?_, rfl⟩)
  rw [htaken]
  refine Run.runs_bind.mpr (.inl ⟨[], (), none, _, .ret _, ?_, rfl⟩)
  exact Run.runs_bind.mpr (.inl ⟨_, [address], none, _,
    runs_safeFetchAddresses request.host request.port address none,
    runs_connectFirst request address none, rfl⟩)

theorem runs_trusted {httpx : Httpx} {urljoin : Text → Text → Option Text}
    {current : Text} (address : IpAddress) (hops : Nat) (st : HopTrust)
    (htrust : isTrustedSourceUrl httpx netlocOk (some t) current = true)
    (hbld : buildRequest httpx current = .ok request)
    (hgrant : (t.origin.host, t.origin.port) = (request.host.map Char.toLower, request.port)) :
    (walk httpx netlocOk urljoin (some t) (hops + 1) current st).Runs
      [.getaddrinfo request.host request.port, .connectTcp address request, .exchange request]
      (.ok (none, none), none) := by
  have hnote : grantOf httpx netlocOk (some t) current =
      some (request.host.map Char.toLower, request.port) := by
    rw [grantOf, if_pos htrust, Option.map_some, hgrant]
  have hin : (enterHop httpx netlocOk (some t) current st).Runs []
      (.ok (), grantOf httpx netlocOk (some t) current) := by
    rw [enterHop_eq, if_pos htrust]
    exact .ret _
  have hstr : (stream httpx current (grantOf httpx netlocOk (some t) current)).Runs
      [.getaddrinfo request.host request.port, .connectTcp address request, .exchange request]
      (.ok { statusCode := 404, location := [], declaredSize := none, body := none }, none) := by
    rw [stream, hbld, Run.ofExcept_ok_bind]
    refine Run.runs_bind.mpr (.inl ⟨_, (), none, [.exchange request],
      runs_connectTcp address hnote, ?_, rfl⟩)
    refine Program.Runs.call (show Ans (.exchange request) from
      some { statusCode := 404, location := [], declaredSize := none, body := none }) ?_
    exact Program.Runs.ret _
  refine Run.runs_bind.mpr (.inl ⟨[], (), _, _, hin, ?_, rfl⟩)
  refine Run.runs_bind.mpr (.inl ⟨_, _, _, [], hstr, ?_, rfl⟩)
  exact .ret _

/-- The blocked address of the machine itself is connected to for a path of the local
    server, and the request is not contained. -/
def Escapes (path : Text) : Prop :=
  ∃ trace result request,
    (resolveHttpSource localHttpx (fun _ => true) (fun _ location => some location)
      "http://127.0.0.1:9696/prowlarr".toList (localServer ++ path) none).Runs trace result ∧
    .connectTcp (.v4 (IPv4Address.ofBytes 127 0 0 1)) request ∈ trace ∧
    ¬ Contained (trustedSource localHttpx (fun _ => true)
      "http://127.0.0.1:9696/prowlarr".toList) (.v4 (IPv4Address.ofBytes 127 0 0 1)) request

theorem escapes_of_mem : ∀ path ∈
    ["/prowlarr;evil".toList, "/prowlarr/x;%2f..%2f..%2fadmin".toList], Escapes path := by
  have hsrc : trustedSource localHttpx (fun _ => true)
      "http://127.0.0.1:9696/prowlarr".toList = some
        { origin := { scheme := http, host := "127.0.0.1".toList, port := 9696 }
          pathPrefix := ["prowlarr".toList] } := by decide
  have hblocked : isBlockedIp (.v4 (IPv4Address.ofBytes 127 0 0 1)) = true := by decide
  intro path hpath
  have hbld : buildRequest localHttpx (localServer ++ path) = .ok
      { url := localServer ++ path, host := "127.0.0.1".toList, port := 9696, path
        query := [] } := by
    revert path
    decide
  have htrust : isTrustedSourceUrl localHttpx (fun _ => true)
      (trustedSource localHttpx (fun _ => true) "http://127.0.0.1:9696/prowlarr".toList)
      (localServer ++ path) = true := by
    revert path
    decide
  have hrun : (walk localHttpx (fun _ => true) (fun _ location => some location)
      (some { origin := { scheme := http, host := "127.0.0.1".toList, port := 9696 }
              pathPrefix := ["prowlarr".toList] }) redirectMaxDepth (localServer ++ path) none).Runs
      _ _ := runs_trusted (.v4 (IPv4Address.ofBytes 127 0 0 1)) 4 none htrust hbld rfl
  refine ⟨_, _, _, by rw [resolveHttpSource, hsrc]; exact hrun,
    List.mem_cons_of_mem _ List.mem_cons_self, ?_⟩
  · rw [hsrc]
    rintro (hvetted | ⟨t, ht, -, -, hbeneath⟩)
    · rw [hblocked] at hvetted
      exact nomatch hvetted
    · cases ht
      rcases List.mem_cons.mp hpath with rfl | hpath
      · exact absurd hbeneath.starts (by decide)
      · obtain rfl := List.mem_singleton.mp hpath
        refine hbeneath.stays "x;%2f..%2f..%2fadmin".toList (by decide) ?_
        exact ⟨[0x2E, 0x2E], by decide, by decide⟩

/-- The last segment of the prefix goes on in one path that is trusted, and the other
    leads out of the prefix for who decodes it. -/
theorem fetch_escapes : Escapes "/prowlarr;evil".toList ∧
    Escapes "/prowlarr/x;%2f..%2f..%2fadmin".toList :=
  ⟨escapes_of_mem _ List.mem_cons_self,
    escapes_of_mem _ (List.mem_cons_of_mem _ List.mem_cons_self)⟩

end SafeFetch

end PlexManager
