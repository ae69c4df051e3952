import PlexManager.Theory.PlexWatch.Evidence

/-!
# When watched evidence fails

A search that goes by a cached list of the sections looks for a title where Plex had its
sections when the list was made. If the list covers other files than the sections that
there are, there may be a copy of the title that is out of sight, or one in sight that no
section has any more, and what is reported is wrong.

For any such list a Plex is made up in which this happens: it has a copy that is found and
was watched, and, if need be, one that is not found and was viewed later.

## Theorems

* `supported_iff`: When every answer is safe.
-/

namespace PlexManager

namespace PlexLibrary

open Effects Gather TtlCache

variable {library : Library} {outcome : Request → Outcome} {sections : List LibrarySection}

/-! ### A list that does harm -/

theorem digitsAt_skip {c : Char} (hc : c ≠ 't') (cs : List Char) : digitsAt (c :: cs) = [] := by
  unfold digitsAt
  simp [hc.symm, List.isPrefixOf]

theorem extractTmdbIds_skip {c : Char} (hc : c ≠ 't') (cs : List Char) :
    extractTmdbIds (c :: cs) = extractTmdbIds cs := by
  have hnone : idAt (c :: cs) = none := by
    unfold idAt
    rw [digitsAt_skip hc, if_pos rfl]
  rw [extractTmdbIds, hnone]
  rfl

theorem idsReadIn_skip {c : Char} (hc : c ≠ 't') (cs : List Char) :
    idsReadIn (c :: cs) = idsReadIn cs := by
  rw [idsReadIn, digitsAt_skip hc]
  rfl

theorem extractTmdbIds_digits {digits : List Char} (h : ∀ c ∈ digits, isDigit c = true) :
    extractTmdbIds digits = [] ∧ idsReadIn digits = true := by
  induction digits with
  | nil => exact ⟨rfl, rfl⟩
  | cons c cs ih =>
    have hne : c ≠ 't' := by
      rintro rfl
      exact absurd (h 't' List.mem_cons_self) (by decide)
    rw [extractTmdbIds_skip hne, idsReadIn_skip hne]
    exact ih fun c' hc' => h c' (List.mem_cons_of_mem c hc')

-- Every number can be written, and with as many digits as it needs.
theorem exists_digits (n : Nat) : ∃ digits, digits ≠ [] ∧ (∀ c ∈ digits, isDigit c = true) ∧
    number digits = n ∧ ∀ k, 0 < k → n < 10 ^ k → digits.length ≤ k := by
  have hdigit : ∀ d : Fin 10, isDigit (Char.ofNat (48 + d)) = true ∧
      (Char.ofNat (48 + d)).toNat - '0'.toNat = d := by decide
  induction n using Nat.strongRecOn with
  | ind n ih =>
    rcases hdigit ⟨n % 10, Nat.mod_lt n (by decide)⟩ with ⟨hlast, hval⟩
    by_cases hlt : n < 10
    · refine ⟨[Char.ofNat (48 + n % 10)], by simp, by simpa using hlast, ?_, fun k hk _ => hk⟩
      show 10 * 0 + _ = n
      rw [hval]
      dsimp only
      omega
    · rcases ih (n / 10) (by omega) with ⟨digits, hne, hdig, hnum, hlen⟩
      refine ⟨digits ++ [Char.ofNat (48 + n % 10)], by simp, ?_, ?_, ?_⟩
      · intro c hc
        rcases List.mem_append.mp hc with hc | hc
        · exact hdig c hc
        · rw [List.mem_singleton.mp hc]
          exact hlast
      · unfold number at hnum ⊢
        rw [List.foldl_append, hnum]
        show 10 * (n / 10) + _ = n
        rw [hval]
        dsimp only
        omega
      · intro k hk hpow
        obtain ⟨k, rfl⟩ : ∃ k', k = k' + 1 := ⟨k - 1, by omega⟩
        rw [Nat.pow_succ] at hpow
        have hpos : 0 < k := by
          rcases Nat.eq_zero_or_pos k with rfl | hpos
          · omega
          · exact hpos
        have hle := hlen k hpos (by omega)
        rw [List.length_append, List.length_singleton]
        omega

-- Every title whose id is not too long has a text that names it, and nothing else.
theorem exists_guid {n : Nat} (hn : n < 10 ^ TextCodec.maxStrDigits) : ∃ guid : String,
    guid ≠ "" ∧ extractTmdbIds guid.toList = [n] ∧ idsReadIn guid.toList = true := by
  rcases exists_digits n with ⟨digits, hne, hdig, hnum, hlen⟩
  have hat := digitsAt_tmdb hdig
  have hid : idAt ("tmdb://".toList ++ digits) = some n := by
    unfold idAt
    rw [hat, if_neg hne, hnum]
  have htext : extractTmdbIds ("tmdb://".toList ++ digits) = [n] := by
    show (idAt ("tmdb://".toList ++ digits)).toList ++
      extractTmdbIds ('m' :: 'd' :: 'b' :: ':' :: '/' :: '/' :: digits) = [n]
    rw [hid, extractTmdbIds_skip (by decide), extractTmdbIds_skip (by decide),
      extractTmdbIds_skip (by decide), extractTmdbIds_skip (by decide),
      extractTmdbIds_skip (by decide), extractTmdbIds_skip (by decide),
      (extractTmdbIds_digits hdig).1]
    rfl
  have hread : idsReadIn ("tmdb://".toList ++ digits) = true := by
    show (decide ((digitsAt ("tmdb://".toList ++ digits)).length ≤ TextCodec.maxStrDigits) &&
      idsReadIn ('m' :: 'd' :: 'b' :: ':' :: '/' :: '/' :: digits)) = true
    rw [hat, idsReadIn_skip (by decide), idsReadIn_skip (by decide), idsReadIn_skip (by decide),
      idsReadIn_skip (by decide), idsReadIn_skip (by decide), idsReadIn_skip (by decide),
      (extractTmdbIds_digits hdig).2, Bool.and_true, decide_eq_true_eq]
    exact hlen _ (by decide) hn
  refine ⟨tmdbGuid digits, tmdbGuid_ne digits, ?_⟩
  unfold tmdbGuid
  rw [String.toList_ofList]
  exact ⟨htext, hread⟩

/-- A copy of a title: the section that it is in, its file, and when it was viewed. -/
structure Copy where
  key : String
  file : String
  viewed : Int

namespace Copy

def media (file : String) : Json := .arr [.obj [("Part", .arr [.obj [("file", .str file)]])]]

def item (guid tag : String) (c : Copy) : Fields :=
  [("guid", .str guid), ("ratingKey", .str tag), ("viewCount", .int 1),
    ("lastViewedAt", .int c.viewed), ("Media", media c.file)]

def season (number : Int) (tag : String) (c : Copy) : Fields :=
  [("index", .int number), ("ratingKey", .str (tag ++ "s")), ("leafCount", .int 1),
    ("viewedLeafCount", .int 1), ("lastViewedAt", .int c.viewed)]

def episode (c : Copy) : Fields := [("Media", media c.file)]

def state (c : Copy) : WatchState := { watched := true, lastViewedAt := some c.viewed }

end Copy

def copies (x : Copy) (y : Option Copy) : List (String × Copy) :=
  ("x", x) :: y.toList.map fun c => ("y", c)

/-- A Plex with some sections, in which there are only copies of one title. -/
def rivals (current : List LibrarySection) (guid : String) (number : Int) (x : Copy)
    (y : Option Copy) : Request → Outcome
  | .sections => .unreachable
  | .sectionItems key _ =>
      if current.any (·.key = key) then
        answerRows (((copies x y).filter (·.2.key = key)).map fun c => .obj (c.2.item guid c.1))
      else .answered 404 none
  | .children ratingKey =>
      answerRows (((copies x y).filter (·.1 = ratingKey)).map (fun c =>
        .obj (c.2.season number c.1)) ++
        ((copies x y).filter (·.1 ++ "s" = ratingKey)).map fun c => .obj c.2.episode)
  | .refresh _ _ => .unreachable

theorem rowsOf_answerRows (hsafe : library.headerSafe = true) {r : Request} {rows : List Json}
    (h : outcome r = answerRows rows) : rowsOf library outcome r = .ok (rows.map asMapping) := by
  unfold rowsOf got
  rw [if_pos hsafe, h]
  rfl

variable {tag path : String} {c : Copy} {title : Title} {own : List LibrarySection}

section
variable {current : List LibrarySection} {guid : String} {number : Int} {x : Copy} {y : Option Copy}

theorem pageAt_rivals (hsafe : library.headerSafe = true) {key : String}
    (hkey : ∃ s ∈ current, s.key = key) (n : Nat) :
    pageAt library (rivals current guid number x y) key n =
      .ok (((copies x y).filter (·.2.key = key)).map fun c => c.2.item guid c.1) := by
  have hany : current.any (·.key = key) = true := by
    rw [List.any_eq_true]
    rcases hkey with ⟨s, hs, hk⟩
    exact ⟨s, hs, by simpa using hk⟩
  have hout : rivals current guid number x y (.sectionItems key (n * pageSize)) = answerRows
      (((copies x y).filter (·.2.key = key)).map fun c => .obj (c.2.item guid c.1)) := if_pos hany
  unfold pageAt
  rw [rowsOf_answerRows hsafe hout, List.map_map]
  rfl

theorem pageAt_gone {key : String} (hkey : ∀ s ∈ current, s.key ≠ key) (n : Nat) :
    ∃ e, pageAt library (rivals current guid number x y) key n = .error e := by
  have hany : ¬ current.any (·.key = key) = true := by
    rw [List.any_eq_true]
    rintro ⟨s, hs, hk⟩
    exact hkey s hs (by simpa using hk)
  have hout : rivals current guid number x y (.sectionItems key (n * pageSize)) =
      .answered 404 none := if_neg hany
  unfold pageAt rowsOf got
  split
  · rw [hout]
    exact ⟨.library, rfl⟩
  · exact ⟨.auth, rfl⟩

theorem childrenOf_rivals (hsafe : library.headerSafe = true) (hc : (tag, c) ∈ copies x y) :
    childrenOf library (rivals current guid number x y) tag = .ok [c.season number tag] ∧
      childrenOf library (rivals current guid number x y) (tag ++ "s") = .ok [c.episode] := by
  unfold childrenOf
  rw [rowsOf_answerRows hsafe rfl, rowsOf_answerRows hsafe rfl]
  rcases List.mem_cons.mp hc with heq | hc
  · cases heq
    cases y with
    | none | some y => exact ⟨rfl, rfl⟩
  · rcases List.mem_map.mp hc with ⟨y', hy, heq⟩
    cases heq
    obtain rfl := Option.mem_toList.mp hy
    exact ⟨rfl, rfl⟩

theorem current_rivals : Current library (rivals current guid number x y) current where
  listed own h := by
    unfold listing got at h
    by_cases hsafe : library.headerSafe = true
    · rw [if_pos hsafe] at h
      cases h
    · rw [if_neg hsafe] at h
      cases h
  unlisted key n hkey := pageAt_gone hkey n

theorem mem_copies : (tag, c) ∈ copies x y ↔ (tag = "x" ∧ c = x) ∨ (tag = "y" ∧ y = some c) := by
  unfold copies
  rw [List.mem_cons, Prod.mk.injEq, List.mem_map]
  refine or_congr .rfl ?_
  constructor
  · rintro ⟨c', hc', heq⟩
    cases heq
    exact ⟨rfl, Option.mem_toList.mp hc'⟩
  · rintro ⟨rfl, hy⟩
    exact ⟨c, Option.mem_toList.mpr hy, rfl⟩

-- In such a Plex no show has a season twice.
theorem unique_rivals (title : Title) : title.Unique library (rivals current guid number x y) := by
  cases title with
  | movie tmdbId => exact trivial
  | season tmdbId n =>
    intro ratingKey rows hrows row hrow row' hrow' hidx hidx'
    have hsafe : library.headerSafe = true := by
      have hsent := sent_of_ok hrows
      unfold sent at hsent
      split at hsent
      · assumption
      · cases hsent
    unfold childrenOf at hrows
    rw [rowsOf_answerRows hsafe rfl] at hrows
    cases hrows
    have hseas : ∀ row, getInt row "index" = some n →
        row ∈ (((copies x y).filter (·.1 = ratingKey)).map (fun c =>
          Json.obj (c.2.season number c.1)) ++
          ((copies x y).filter (·.1 ++ "s" = ratingKey)).map fun c => Json.obj c.2.episode).map
            asMapping →
        ∃ c, (ratingKey, c) ∈ copies x y ∧ row = c.season number ratingKey := by
      intro row hidx hrow
      rw [List.map_append, List.map_map, List.map_map] at hrow
      rcases List.mem_append.mp hrow with hrow | hrow
      · rcases List.mem_map.mp hrow with ⟨⟨tag, c⟩, hc, rfl⟩
        rw [List.mem_filter] at hc
        have htag : tag = ratingKey := by simpa using hc.2
        subst htag
        exact ⟨c, hc.1, rfl⟩
      · rcases List.mem_map.mp hrow with ⟨⟨tag, c⟩, -, rfl⟩
        cases hidx
    rcases hseas row hidx hrow with ⟨c, hc, rfl⟩
    rcases hseas row' hidx' hrow' with ⟨c', hc', rfl⟩
    have hsame : c = c' := by
      rcases mem_copies.mp hc with ⟨rfl, rfl⟩ | ⟨rfl, hy⟩
      · rcases mem_copies.mp hc' with ⟨-, rfl⟩ | ⟨htag, -⟩
        · rfl
        · exact absurd htag (by decide)
      · rcases mem_copies.mp hc' with ⟨htag, -⟩ | ⟨-, hy'⟩
        · exact absurd htag (by decide)
        · rw [hy] at hy'
          exact Option.some.inj hy'
    rw [hsame]

/-- What is read from a copy. -/
structure Copy.Reads (c : Copy) (guid tag : String) (number : Int) : Prop where
  ratingKey : getStr (c.item guid tag) "ratingKey" = some tag
  seasonKey : getStr (c.season number tag) "ratingKey" = some (tag ++ "s")
  files : extractFilePaths (c.item guid tag) = [c.file]
  episodeFiles : extractFilePaths c.episode = [c.file]
  guids : guids (c.item guid tag) = [guid]

theorem Copy.reads (c : Copy) (hguid : guid ≠ "") (hfile : c.file ≠ "")
    (hc : (tag, c) ∈ copies x y) : c.Reads guid tag number := by
  have htag : tag = "x" ∨ tag = "y" := by
    rcases mem_copies.mp hc with ⟨rfl, -⟩ | ⟨rfl, -⟩
    · exact .inl rfl
    · exact .inr rfl
  have hstr : ∀ (fields : Fields) (key value : String), field fields key = .str value → value ≠ "" →
      getStr fields key = some value := by
    intro fields key value hfld hne
    unfold getStr
    rw [hfld]
    exact if_neg hne
  have hne : tag ≠ "" ∧ tag ++ "s" ≠ "" := by
    rcases htag with rfl | rfl
    · decide
    · decide
  have hpart : ∀ row : Fields, field row "Media" = Copy.media c.file →
      extractFilePaths row = [c.file] := by
    intro row hrow
    unfold extractFilePaths
    rw [hrow]
    have hread : getStr (asMapping (.obj [("file", .str c.file)])) "file" = some c.file :=
      hstr _ _ _ rfl hfile
    show [Json.obj [("file", .str c.file)]].filterMap (fun part =>
      getStr (asMapping part) "file") ++ []
      = [c.file]
    rw [List.append_nil, List.filterMap_cons, hread]
    rfl
  refine ⟨hstr _ _ _ rfl hne.1, hstr _ _ _ rfl hne.2, hpart _ rfl, hpart _ rfl, ?_⟩
  unfold PlexLibrary.guids
  rw [hstr (c.item guid tag) "guid" guid rfl hguid]
  rfl

theorem hit_rivals (hsafe : library.headerSafe = true) (hguid : guid ≠ "")
    (hc : (tag, c) ∈ copies x y) (hfile : c.file ≠ "") (hview : c.viewed = 1 ∨ c.viewed = 2)
    (scanPath : String) :
    title.hit library (rivals current guid title.number x y) scanPath (c.item guid tag) =
      .ok (if isPathPrefix scanPath c.file then some ([c.file], c.state) else none) := by
  have hread : c.Reads guid tag title.number := Copy.reads c hguid hfile hc
  have hunder : anyUnder scanPath [c.file] = isPathPrefix scanPath c.file := by
    unfold anyUnder
    rw [List.any_cons, List.any_nil, Bool.or_false]
  cases title with
  | movie tmdbId =>
    have hst : movieWatchStateFromItem (c.item guid tag) = .ok c.state := by
      rcases c with ⟨key, file, viewed⟩
      rcases hview with rfl | rfl
      · rfl
      · rfl
    show movieHit _ scanPath _ = _
    unfold movieHit
    rw [hread.files, hunder]
    split
    · show (do
        let state ← movieWatchStateFromItem (c.item guid tag)
        pure (some ([c.file], state))) = _
      rw [hst]
      rfl
    · rfl
  | season tmdbId number =>
    have hst : seasonWatchStateFromEntry (c.season number tag) = .ok c.state := by
      rcases c with ⟨key, file, viewed⟩
      rcases hview with rfl | rfl
      · rfl
      · rfl
    have hchild : childrenOf library (rivals current guid number x y) tag =
          .ok [c.season number tag] ∧
        childrenOf library (rivals current guid number x y) (tag ++ "s") = .ok [c.episode] :=
      childrenOf_rivals hsafe hc
    have hfind : findSeasonEntryIn [c.season number tag] number = some (c.season number tag) := by
      unfold findSeasonEntryIn
      rw [List.find?_cons_of_pos]
      exact decide_eq_true rfl
    have hfiles : filesOf library (rivals current guid number x y) (tag ++ "s") = .ok [c.file] := by
      unfold filesOf
      rw [hchild.2]
      show Except.ok (extractFilePaths c.episode ++ []) = _
      rw [hread.episodeFiles, List.append_nil]
    -- The show leads to its season, and the season to the file of its episode.
    show seasonHit (staticReaders library (rivals current guid number x y)) number scanPath _ = _
    unfold seasonHit
    rw [hread.ratingKey]
    dsimp only [staticReaders]
    rw [hchild.1]
    dsimp only [Bind.bind, Except.bind]
    rw [hfind]
    dsimp only
    have hseasonKey : getStr (c.season number tag) "ratingKey" = some (tag ++ "s") :=
      hread.seasonKey
    rw [hseasonKey]
    dsimp only
    rw [hfiles]
    dsimp only
    rw [hunder]
    split
    · rw [hst]
      rfl
    · rfl

theorem matches_copy {tmdbId : Nat} (hguid : guid ≠ "")
    (hids : extractTmdbIds guid.toList = [tmdbId]) (hc : (tag, c) ∈ copies x y)
    (hfile : c.file ≠ "") : itemMatchesTmdbId tmdbId (c.item guid tag) = true := by
  have hread : c.Reads guid tag 0 := Copy.reads c hguid hfile hc
  unfold itemMatchesTmdbId collectItemTmdbIds
  rw [hread.guids]
  show ((extractTmdbIds guid.toList ++ []).dedup).contains tmdbId = true
  rw [hids]
  simp

section

variable (hsafe : library.headerSafe = true)
include hsafe

theorem findAll_rivals (hpage : 0 < library.pages)
    {tmdbId : Nat} (hguid : guid ≠ "") (hids : extractTmdbIds guid.toList = [tmdbId])
    (hread : idsReadIn guid.toList = true) (hfile : ∀ tag c, (tag, c) ∈ copies x y → c.file ≠ "")
    {s : Placed} (hkey : ∃ s' ∈ current, s'.key = s.1.key) :
    ∃ items, (staticReaders library (rivals current guid number x y)).findAll tmdbId s = .ok items ∧
      ∀ item, item ∈ items ↔ ∃ tag c, (tag, c) ∈ copies x y ∧ c.key = s.1.key ∧
        item = c.item guid tag := by
  -- There are two copies at most, so the first page is the last.
  have hshort : (copies x y).length ≤ 2 := by
    cases y with
    | none => exact Nat.le_succ 1
    | some y => exact Nat.le_refl 2
  obtain ⟨pages, hsucc⟩ : ∃ pages, library.pages = pages + 1 := ⟨library.pages - 1, by omega⟩
  have hall : (((copies x y).filter (·.2.key = s.1.key)).map fun c => c.2.item guid c.1).all
      idsRead = true := by
    rw [List.all_eq_true]
    intro item hitem
    rcases List.mem_map.mp hitem with ⟨⟨tag, c⟩, hc, rfl⟩
    have hin := List.mem_of_mem_filter hc
    have hown : c.Reads guid tag 0 := Copy.reads c hguid (hfile tag c hin) hin
    unfold idsRead
    rw [hown.guids, List.all_cons, List.all_nil, hread, Bool.and_self]
  have hread : itemsFrom library (rivals current guid number x y) s.1.key (fun _ => false)
      library.pages 0 =
      .ok (((copies x y).filter (·.2.key = s.1.key)).map fun c => c.2.item guid c.1) := by
    rw [hsucc, itemsFrom, wholePage_eq_ok_iff.mpr ⟨pageAt_rivals hsafe hkey 0, hall⟩]
    dsimp only [Bind.bind, Except.bind]
    rw [if_pos]
    · rfl
    · rw [Bool.or_eq_true]
      refine .inr (decide_eq_true ?_)
      rw [List.length_map]
      have hle := List.length_filter_le (fun c : String × Copy => decide (c.2.key = s.1.key))
        (copies x y)
      unfold pageSize
      omega
  refine ⟨(((copies x y).filter (·.2.key = s.1.key)).map fun c => c.2.item guid c.1).filter
    (itemMatchesTmdbId tmdbId), ?_, ?_⟩
  · dsimp only [staticReaders]
    rw [hread]
    rfl
  · intro item
    rw [List.mem_filter, List.mem_map]
    constructor
    · rintro ⟨⟨⟨tag, c⟩, hc, rfl⟩, -⟩
      rw [List.mem_filter] at hc
      exact ⟨tag, c, hc.1, by simpa using hc.2, rfl⟩
    · rintro ⟨tag, c, hc, hk, rfl⟩
      exact ⟨⟨(tag, c), List.mem_filter.mpr ⟨hc, by simpa using hk⟩, rfl⟩,
        matches_copy hguid hids hc (hfile tag c hc)⟩

-- What a search finds that sees a copy, but not the other one: that it was watched when the
-- first one was.
theorem answerOf_rivals (hpage : 0 < library.pages)
    (hguid : guid ≠ "") (hids : extractTmdbIds guid.toList = [title.tmdbId])
    (hread : idsReadIn guid.toList = true) (hx : Covers own title.type path x.key x.file)
    (hxfile : x.file ≠ "") (hxviewed : x.viewed = 1)
    (hy : ∀ c, y = some c → ¬ Covers own title.type path c.key c.file ∧ c.file ≠ "" ∧ c.viewed = 2)
    (hkeys : ∀ s ∈ own, s.type = title.type → sectionScanPath s path ≠ none →
      ∃ s' ∈ current, s'.key = s.key) :
    answerOf library (rivals current guid title.number x y) own (title.query path) =
      .ok x.state := by
  have hfile : ∀ tag c, (tag, c) ∈ copies x y → c.file ≠ "" ∧ (c.viewed = 1 ∨ c.viewed = 2) := by
    intro tag c hc
    rcases mem_copies.mp hc with ⟨-, rfl⟩ | ⟨-, hsome⟩
    · exact ⟨hxfile, .inl hxviewed⟩
    · exact ⟨(hy c hsome).2.1, .inr (hy c hsome).2.2⟩
  have hgot : ∀ s ∈ (own.filter (·.type = title.type)).zipIdx, ∀ scanPath,
      sectionScanPath s.1 path = some scanPath → ∃ items,
        (staticReaders library (rivals current guid title.number x y)).findAll title.tmdbId s =
          .ok items ∧
        ∀ item, item ∈ items ↔ ∃ tag c, (tag, c) ∈ copies x y ∧ c.key = s.1.key ∧
          item = c.item guid tag := by
    intro s hs scanPath hscan
    rcases mem_placed hs with ⟨hmem, htype⟩
    exact findAll_rivals hsafe hpage hguid hids hread (fun tag c hc => (hfile tag c hc).1)
      (hkeys s.1 hmem htype (by rw [hscan]; simp))
  have hhit : ∀ tag c scanPath, (tag, c) ∈ copies x y →
      title.hit library (rivals current guid title.number x y) scanPath (c.item guid tag) =
        .ok (if isPathPrefix scanPath c.file then some ([c.file], c.state) else none) :=
    fun tag c scanPath hc => hit_rivals hsafe hguid hc (hfile tag c hc).1 (hfile tag c hc).2
      scanPath
  rw [answerOf_query]
  obtain ⟨hits, hhits⟩ : ∃ hits, collectHits
      ((staticReaders library (rivals current guid title.number x y)).findAll title.tmdbId)
      (title.hit library (rivals current guid title.number x y)) path
      (own.filter (·.type = title.type)).zipIdx = .ok hits := by
    refine collectHits_total fun s hs scanPath hscan => ?_
    rcases hgot s hs scanPath hscan with ⟨items, hitems, hmem⟩
    refine ⟨items, hitems, fun item hitem => ?_⟩
    rcases (hmem item).mp hitem with ⟨tag, c, hc, -, rfl⟩
    exact ⟨_, hhit tag c scanPath hc⟩
  have hmem := (collectHits_mem hhits).2
  rw [hhits]
  show Except.ok (resolveCorrelatedWatchState hits) = .ok x.state
  have hst : x.state = { watched := true, lastViewedAt := some 1 } := by
    unfold Copy.state
    rw [hxviewed]
  have hone : ([x.file], x.state) ∈ hits := by
    rcases hx with ⟨s, hs, htype, hkey, scanPath, hscan, hpre⟩
    rcases exists_placed hs htype with ⟨i, hput⟩
    rcases hgot (s, i) hput scanPath hscan with ⟨items, hitems, hin⟩
    have hxin : ("x", x) ∈ copies x y := List.mem_cons_self
    refine (hmem _).mpr ⟨(s, i), hput, scanPath, hscan, items, hitems, x.item guid "x", ?_, ?_⟩
    · exact (hin _).mpr ⟨"x", x, hxin, hkey.symm, rfl⟩
    · rw [hhit "x" x scanPath hxin, if_pos hpre]
  have hall : ∀ hit ∈ hits, hit = ([x.file], x.state) := by
    intro hit hin
    rcases (hmem hit).mp hin with ⟨s, hs, scanPath, hscan, items, hitems, item, hitem, hsome⟩
    rcases hgot s hs scanPath hscan with ⟨items', hitems', hcopy⟩
    rw [hitems] at hitems'
    cases hitems'
    rcases (hcopy item).mp hitem with ⟨tag, c, hc, hkey, rfl⟩
    rw [hhit tag c scanPath hc] at hsome
    by_cases hpre : isPathPrefix scanPath c.file = true
    · rw [if_pos hpre] at hsome
      cases hsome
      -- The other copy is not covered, so that no section finds it.
      rcases mem_copies.mp hc with ⟨-, rfl⟩ | ⟨-, hsome⟩
      · rfl
      · rcases mem_placed hs with ⟨hsect, htype⟩
        exact absurd ⟨s.1, hsect, htype, hkey.symm, scanPath, hscan, hpre⟩ (hy c hsome).1
    · rw [if_neg hpre] at hsome
      cases hsome
  rw [hst, resolve_same (List.ne_nil_of_mem hone) hall hst]

theorem backed_copy (hguid : guid ≠ "") (hc : (tag, c) ∈ copies x y) (hfile : c.file ≠ "") :
    (∀ files row, title.Backed library (rivals current guid title.number x y) (c.item guid tag)
      files row → files = [c.file]) ∧
    ∃ row, title.Backed library (rivals current guid title.number x y) (c.item guid tag)
      [c.file] row ∧
      getInt row "lastViewedAt" = some c.viewed := by
  have hread : c.Reads guid tag title.number := Copy.reads c hguid hfile hc
  have hchild : childrenOf library (rivals current guid title.number x y) tag =
        .ok [c.season title.number tag] ∧
      childrenOf library (rivals current guid title.number x y) (tag ++ "s") = .ok [c.episode] :=
    childrenOf_rivals hsafe hc
  have hfiles : filesOf library (rivals current guid title.number x y) (tag ++ "s") =
      .ok [c.file] := by
    unfold filesOf
    rw [hchild.2]
    show Except.ok (extractFilePaths c.episode ++ []) = _
    rw [hread.episodeFiles, List.append_nil]
  cases title with
  | movie tmdbId =>
    refine ⟨?_, c.item guid tag, ⟨rfl, hread.files.symm⟩, rfl⟩
    rintro files row ⟨-, rfl⟩
    exact hread.files
  | season tmdbId number =>
    constructor
    · rintro files row ⟨ratingKey, rows, seasonKey, hkey, hrows, hrow, -, hseas, hown⟩
      rw [hread.ratingKey] at hkey
      cases hkey
      rw [hchild.1] at hrows
      cases hrows
      obtain rfl := List.mem_singleton.mp hrow
      rw [hread.seasonKey] at hseas
      cases hseas
      rw [hfiles] at hown
      exact (Except.ok.inj hown).symm
    · exact ⟨c.season number tag, ⟨tag, _, tag ++ "s", hread.ratingKey, hchild.1,
        List.mem_cons_self, rfl, hread.seasonKey, hfiles⟩, rfl⟩

-- The evidence in such a Plex is the copies that its sections cover.
theorem evidence_rivals (hguid : guid ≠ "")
    (hfiles : ∀ tag c, (tag, c) ∈ copies x y → c.file ≠ "") {files : List String} {row : Fields}
    (h : Evidence library (rivals current guid title.number x y) current title path files row) :
    ∃ tag c, (tag, c) ∈ copies x y ∧ Covers current title.type path c.key c.file := by
  rcases h with ⟨key, n, items, ended, hload, item, hitem, -, hback, file, hfile, hcov⟩
  rcases hload.mem hitem with ⟨m, page, hpage, hin⟩
  have hkey : ∃ s ∈ current, s.key = key := by
    rcases hcov with ⟨s, hs, -, hk, -⟩
    exact ⟨s, hs, hk⟩
  rw [pageAt_rivals hsafe hkey] at hpage
  cases hpage
  rcases List.mem_map.mp hin with ⟨⟨tag, c⟩, hc, rfl⟩
  rw [List.mem_filter] at hc
  have hown := (backed_copy hsafe hguid hc.1 (hfiles tag c hc.1)).1 files row hback
  rw [hown, List.mem_singleton] at hfile
  have hk : c.key = key := by simpa using hc.2
  rw [hfile, ← hk] at hcov
  exact ⟨tag, c, hc.1, hcov⟩

theorem exists_evidence (hguid : guid ≠ "")
    (hids : extractTmdbIds guid.toList = [title.tmdbId]) (hc : (tag, c) ∈ copies x y)
    (hfile : c.file ≠ "") (hcov : Covers current title.type path c.key c.file) :
    ∃ files row, Evidence library (rivals current guid title.number x y) current title path
      files row ∧
      getInt row "lastViewedAt" = some c.viewed := by
  have hkey : ∃ s ∈ current, s.key = c.key := by
    rcases hcov with ⟨s, hs, -, hk, -⟩
    exact ⟨s, hs, hk⟩
  rcases (backed_copy hsafe hguid hc hfile).2 with ⟨row, hback, hview⟩
  refine ⟨[c.file], row, ⟨c.key, 1, _, _, Loaded.next Loaded.start (pageAt_rivals hsafe hkey 0),
    c.item guid tag, ?_, matches_copy hguid hids hc hfile, hback, c.file, List.mem_cons_self,
    hcov⟩, hview⟩
  exact List.mem_map.mpr ⟨(tag, c), List.mem_filter.mpr ⟨hc, by simp⟩, rfl⟩

end

end

theorem exists_under (scanPath : String) :
    ∃ file, file ≠ "" ∧ isPathPrefix scanPath file = true := by
  refine ⟨String.ofList (rstripSlash scanPath.toList ++ ['/', 'f']), ?_, ?_⟩
  · intro hnil
    have hlist := congrArg String.toList hnil
    simp at hlist
  · unfold isPathPrefix
    rw [String.toList_ofList, Bool.or_eq_true]
    refine .inr (List.isPrefixOf_iff_prefix.mpr ⟨['f'], ?_⟩)
    rw [List.append_assoc]
    rfl

theorem reports_of_cached {st : Caches} {query : WatchStateQuery} {state : WatchState}
    (hcach : cachedSections library st = some own)
    (hans : answerOf library outcome own query = .ok state) :
    Reports library outcome st query state := by
  have hlist : listed library outcome st = .ok own := by
    unfold listed
    rw [hcach]
  obtain ⟨trace, q, hserv⟩ : ∃ trace q,
      Program.Served (Serves outcome) (watchState library query st) trace q := exists_served _ _
  refine .inl ⟨trace, q, hserv, ?_⟩
  rw [(served_watchState hserv).1, answerFrom_of_listed hlist]
  exact hans

-- Two copies, one of which is out of sight: what is reported is not safe.
theorem unsupported_rivals {st : Caches} {current : List LibrarySection} {x : Copy}
    {y : Option Copy} (hsafe : library.headerSafe = true) (hpage : 0 < library.pages)
    (hnamed : title.tmdbId < 10 ^ TextCodec.maxStrDigits)
    (hcach : cachedSections library st = some own) (hx : Covers own title.type path x.key x.file)
    (hxfile : x.file ≠ "") (hxviewed : x.viewed = 1)
    (hy : ∀ c, y = some c → ¬ Covers own title.type path c.key c.file ∧ c.file ≠ "" ∧ c.viewed = 2)
    (hkeys : ∀ s ∈ own, s.type = title.type → sectionScanPath s path ≠ none →
      ∃ s' ∈ current, s'.key = s.key)
    (hwrong : (¬ Covers current title.type path x.key x.file ∧ y = none) ∨
      ∃ c, y = some c ∧ Covers current title.type path c.key c.file) :
    ∃ outcome, Current library outcome current ∧ title.Unique library outcome ∧ ∃ state,
      Reports library outcome st (title.query path) state ∧ state.watched = true ∧
        ¬ Supported library outcome current title path state := by
  rcases exists_guid hnamed with ⟨guid, hguid, hids, hread⟩
  have hfile : ∀ tag c, (tag, c) ∈ copies x y → c.file ≠ "" := by
    intro tag c hc
    rcases mem_copies.mp hc with ⟨-, rfl⟩ | ⟨-, hsome⟩
    · exact hxfile
    · exact (hy c hsome).2.1
  refine ⟨rivals current guid title.number x y, current_rivals, unique_rivals title, x.state,
    reports_of_cached hcach ?_, rfl, ?_⟩
  · exact answerOf_rivals hsafe hpage hguid hids hread hx hxfile hxviewed hy hkeys
  · intro hsup
    rcases hwrong with ⟨hout, rfl⟩ | ⟨c, hsome, hcov⟩
    · -- What was found is no evidence.
      rcases hsup.watched with ⟨files, row, found, hevid, -, -⟩
      rcases evidence_rivals hsafe hguid hfile hevid with ⟨tag, c, hc, hcov⟩
      rcases mem_copies.mp hc with ⟨-, rfl⟩ | ⟨-, hsome⟩
      · exact hout hcov
      · cases hsome
    · -- The other copy was viewed later.
      have hc : ("y", c) ∈ copies x y := mem_copies.mpr (.inr ⟨rfl, hsome⟩)
      rcases exists_evidence hsafe hguid hids hc (hfile _ c hc) hcov with
        ⟨files, row, hevid, hview⟩
      rcases hsup.latest with ⟨time, htime, hlast⟩
      have hle := hlast files row c.viewed hevid hview
      have hone : x.viewed = time := Option.some.inj htime
      rw [(hy c hsome).2.2] at hle
      omega

/-! ### An id that is too long -/

theorem number_lt {digits : List Char} (h : ∀ c ∈ digits, isDigit c = true) :
    number digits < 10 ^ digits.length := by
  induction digits using List.reverseRecOn with
  | nil => decide
  | append_singleton digits c ih =>
    have hrest := ih fun c' hc' => h c' (List.mem_append_left _ hc')
    have hlast : c.toNat - '0'.toNat < 10 := by
      have hdigit := h c (List.mem_append_right _ List.mem_cons_self)
      simp only [isDigit, decide_eq_true_eq, Char.le_def, UInt32.le_iff_toNat_le] at hdigit
      have hle : c.toNat ≤ 57 := hdigit.2
      show c.toNat - 48 < 10
      omega
    unfold number at hrest ⊢
    rw [List.foldl_append, List.length_append, List.length_singleton, Nat.pow_succ]
    show 10 * _ + (c.toNat - '0'.toNat) < _
    omega

-- What `int` takes has no more digits than it reads.
theorem lt_of_mem_extractTmdbIds {text : List Char} {n : Nat} (hread : idsReadIn text = true)
    (hn : n ∈ extractTmdbIds text) : n < 10 ^ TextCodec.maxStrDigits := by
  induction text with
  | nil => cases hn
  | cons c cs ih =>
    rw [idsReadIn, Bool.and_eq_true, decide_eq_true_eq] at hread
    rcases List.mem_append.mp hn with hhere | hrest
    · rw [Option.mem_toList] at hhere
      unfold idAt at hhere
      split at hhere
      · cases hhere
      · cases hhere
        refine Nat.lt_of_lt_of_le (number_lt ?_) (Nat.pow_le_pow_right (by decide) hread.1)
        intro d hd
        unfold digitsAt at hd
        split at hd
        · exact List.mem_takeWhile_imp hd
        · split at hd
          · exact List.mem_takeWhile_imp hd
          · cases hd
    · exact ih hread.2 hrest

/-- The id of the title has more digits than `int` reads, so that no row that is read names it. -/
def Title.Unnamed (title : Title) : Prop := 10 ^ TextCodec.maxStrDigits ≤ title.tmdbId

theorem Title.Unnamed.not_matches {item : Fields} (h : title.Unnamed)
    (hread : idsRead item = true) : ¬ itemMatchesTmdbId title.tmdbId item = true := by
  intro hmatch
  unfold itemMatchesTmdbId collectItemTmdbIds at hmatch
  rw [List.contains_iff_mem, List.mem_dedup, List.mem_flatMap] at hmatch
  rcases hmatch with ⟨guid, hguid, hid⟩
  have hlt := lt_of_mem_extractTmdbIds (List.all_eq_true.mp hread guid hguid) hid
  exact absurd h (Nat.not_le.mpr hlt)

theorem Title.Unnamed.unwatched {st : Caches} {state : WatchState} (h : title.Unnamed)
    (hrep : Reports library outcome st (title.query path) state) : state.watched = false := by
  rcases hrep.collected with ⟨own, hits, -, hhits, rfl⟩
  cases hits with
  | nil => rfl
  | cons first rest =>
    rcases ((collectHits_mem hhits).2 first).mp List.mem_cons_self with
      ⟨s, -, scanPath, -, items, hitems, item, hitem, -⟩
    rcases map_eq_ok hitems with ⟨all, hall, rfl⟩
    rw [List.mem_filter] at hitem
    exact absurd hitem.2 (h.not_matches (List.all_eq_true.mp (itemsFrom_read hall) item hitem.1))

/-- Every answer about a title that was watched is safe, whatever is in Plex, exactly if the
    cached list of the sections does no harm, or the title has an id that no row can name. -/
theorem supported_iff {st : Caches} {title : Title} {path : String} {current : List LibrarySection}
    (hpages : 0 < library.pages) :
    (∀ outcome, Current library outcome current → title.Unique library outcome → ∀ state,
      Reports library outcome st (title.query path) state → state.watched = true →
        Supported library outcome current title path state) ↔
    (library.headerSafe = false ∨ title.Unnamed ∨
      Trustworthy (cachedSections library st) current title.type path) := by
  constructor
  · intro hsup
    by_contra hharm
    rw [not_or, not_or, Bool.not_eq_false] at hharm
    rcases hharm with ⟨hsafe, hnamed, hharm⟩
    have hnamed := Nat.lt_of_not_le hnamed
    unfold Trustworthy at hharm
    rw [not_forall] at hharm
    rcases hharm with ⟨own, hharm⟩
    rw [Classical.not_imp, not_or, not_or] at hharm
    rcases hharm with ⟨hcach, hsome, hlist, hcov⟩
    have hkeys : ∀ s ∈ own, s.type = title.type → sectionScanPath s path ≠ none →
        ∃ s' ∈ current, s'.key = s.key := by
      intro s hs htype hscan
      by_contra hgone
      exact hlist ⟨s, hs, htype, hscan, fun s' hs' hkey => hgone ⟨s', hs', hkey⟩⟩
    obtain ⟨key, file, hfile, hdiffer⟩ : ∃ key file, file ≠ "" ∧
        ¬ (Covers own title.type path key file ↔ Covers current title.type path key file) := by
      by_contra hall
      exact hcov fun key file hfile => by_contra fun hdiffer => hall ⟨key, file, hfile, hdiffer⟩
    suffices hwrong : ∃ outcome, Current library outcome current ∧ title.Unique library outcome ∧
        ∃ state, Reports library outcome st (title.query path) state ∧ state.watched = true ∧
          ¬ Supported library outcome current title path state by
      rcases hwrong with ⟨outcome, hcur, huniq, state, hrep, hwat, hunsup⟩
      exact hunsup (hsup outcome hcur huniq state hrep hwat)
    -- Such a list covers a file that the current one does not, or misses one.
    by_cases hown : Covers own title.type path key file
    · have hout : ¬ Covers current title.type path key file := fun hin =>
        hdiffer ⟨fun _ => hin, fun _ => hown⟩
      exact unsupported_rivals (x := ⟨key, file, 1⟩) hsafe hpages hnamed hcach hown hfile rfl
        (by simp) hkeys (.inl ⟨hout, rfl⟩)
    have hin : Covers current title.type path key file := by
      by_contra hout
      exact hdiffer ⟨fun h => absurd h hown, fun h => absurd h hout⟩
    obtain ⟨s, hs, htype, scanPath, hscan⟩ : ∃ s ∈ own, s.type = title.type ∧
        ∃ scanPath, sectionScanPath s path = some scanPath := by
      by_contra hnone
      refine hsome fun s hs htype => ?_
      by_contra hscan
      rcases Option.ne_none_iff_exists'.mp hscan with ⟨scanPath, hscan⟩
      exact hnone ⟨s, hs, htype, scanPath, hscan⟩
    -- The search sees a first copy, and not that another was viewed later.
    rcases exists_under scanPath with ⟨seen, hseen, hpre⟩
    have hx : Covers own title.type path s.key seen := ⟨s, hs, htype, rfl, scanPath, hscan, hpre⟩
    refine unsupported_rivals (x := ⟨s.key, seen, 1⟩) (y := some ⟨key, file, 2⟩) hsafe hpages hnamed
      hcach hx hseen rfl ?_ hkeys (Or.inr ⟨_, rfl, hin⟩)
    rintro c hc
    cases hc
    exact ⟨hown, hfile, rfl⟩
  · intro htrust outcome hcur huniq state hrep hwat
    rcases htrust with hunsafe | hunnamed | htrust
    · exact supported_of_trustworthy hcur huniq (.inl hunsafe) hrep hwat
    · rw [hunnamed.unwatched hrep] at hwat
      cases hwat
    · exact supported_of_trustworthy hcur huniq (.inr htrust) hrep hwat

/-! ### A section that was added -/

def mediaSection : LibrarySection where
  key := "1"
  title := "Movies"
  type := .movie
  locations := ["/media"]

def animeSection : LibrarySection where
  key := "2"
  title := "Anime"
  type := .movie
  locations := ["/media/anime"]

/-- A Plex with two sections that have the same file. Through the second it was viewed again. -/
def rewatched : Request → Outcome
  | .sections => .answered 200 (some (.obj [("MediaContainer", .obj [("Directory", .arr [
      .obj [("key", .str "1"), ("title", .str "Movies"), ("type", .str "movie"),
        ("Location", .arr [.obj [("path", .str "/media")]])],
      .obj [("key", .str "2"), ("title", .str "Anime"), ("type", .str "movie"),
        ("Location", .arr [.obj [("path", .str "/media/anime")]])]])])]))
  | .sectionItems key _ => answerRows [.obj
      (Copy.item "tmdb://7" "a" ⟨key, "/media/anime/7.mkv", if key = "1" then 1 else 2⟩)]
  | .children _ => answerRows []
  | .refresh _ _ => .unreachable

/-- A cache with the list from before the second section was added. -/
def stale : Caches where
  now := 0
  sections := ({} : Cache String (List LibrarySection)).set cacheTtl 0 "plex" [mediaSection]

theorem stale_supported_iff :
    0 < anyLibrary.pages ∧
    ((∀ outcome, Current anyLibrary outcome [mediaSection, animeSection] →
      (Title.movie 7).Unique anyLibrary outcome → ∀ state,
        Reports anyLibrary outcome stale ((Title.movie 7).query "/media/anime") state →
          state.watched = true →
            Supported anyLibrary outcome [mediaSection, animeSection]
              (.movie 7) "/media/anime" state) ↔
      (anyLibrary.headerSafe = false ∨ (Title.movie 7).Unnamed ∨
        Trustworthy (cachedSections anyLibrary stale)
        [mediaSection, animeSection] .movie "/media/anime")) :=
  ⟨by decide, supported_iff (by decide)⟩

/-- The section that was added has the newest view, and it is missed. -/
theorem stale_missed :
    ((watchState anyLibrary ((Title.movie 7).query "/media/anime") stale).serve
      fun r => { outcome := rewatched r }).2.1 = .ok { watched := true, lastViewedAt := some 1 } ∧
    ¬ Supported anyLibrary rewatched [mediaSection, animeSection] (.movie 7) "/media/anime"
      { watched := true, lastViewedAt := some 1 } := by
  refine ⟨by decide +kernel, fun hsup => ?_⟩
  let viewedAgain : Copy := ⟨"2", "/media/anime/7.mkv", 2⟩
  have hevid : Evidence anyLibrary rewatched [mediaSection, animeSection] (.movie 7) "/media/anime"
      ["/media/anime/7.mkv"] (viewedAgain.item "tmdb://7" "a") := by
    refine ⟨"2", 1, _, _, Loaded.next Loaded.start (rowsOf_answerRows rfl rfl),
      viewedAgain.item "tmdb://7" "a", List.mem_cons_self, by decide +kernel,
        ⟨rfl, by decide +kernel⟩,
      "/media/anime/7.mkv", List.mem_cons_self, animeSection, by decide, rfl, rfl,
      "/media/anime", by decide +kernel, by decide +kernel⟩
  rcases hsup.latest with ⟨time, htime, hlast⟩
  have hle := hlast _ _ 2 hevid rfl
  have hone : (1 : Int) = time := Option.some.inj htime
  omega

end PlexLibrary

end PlexManager
