import PlexManager.Core.InFlightGuards

/-!
# The guards over many keys are the guards over one

What a download holds is a matter of the rows alone: a key is held by a row that
has not finished, either through its scalar columns, where it has no scope for
that key, or through an unresolved scope. A season of a title is covered by a
claim that is active, of a row that has not finished. The query for one key asks
whether there is such a row. The queries for many keys first fetch every row that
may hold one of them, and the loop over these rows then collects the keys that
each of them holds.

The net of the first query is wide enough, since a row that holds a key has the
request of that key in its scalar columns or in one of its scopes. And the second
query leaves out no scope that would supersede a scalar column, because it goes
by the request, which such a scope has in common with the key.

## Theorems

* `guards_agree`: They are the same.
-/

namespace PlexManager

namespace InFlight

open Grab (MediaType)

/-! ### What is in flight -/

/-- A row for a key: a scope of it, or its scalar columns if there is none. -/
def Holds (db : Database) (d : Download) (k : RequestKey) : Prop :=
  (d.mediaRequestId = some k.1 ∧ d.season = k.2 ∧
    ∀ s ∈ db.scopes, s.downloadId = d.id → s.mediaRequestId = some k.1 → s.seasonNumber ≠ k.2) ∨
  ∃ s ∈ db.scopes, s.downloadId = d.id ∧ s.mediaRequestId = some k.1 ∧ s.seasonNumber = k.2 ∧
    s.status.unresolved = true

def Held (db : Database) (k : RequestKey) : Prop :=
  ∃ d ∈ db.downloads, d.active = true ∧ Holds db d k

def Covered (db : Database) (k : TitleKey) : Prop :=
  ∃ d ∈ db.downloads, d.active = true ∧ ∃ c ∈ db.claims, c.downloadId = d.id ∧ c.active = true ∧
    c.seasonNumber = k.2 ∧ k.2.isSome = true ∧
      ∃ r ∈ db.requests, c.mediaRequestId = some r.id ∧ r.tmdbId = k.1 ∧ r.mediaType = .tv

/-! ### One key -/

variable (db : Database) (keySet : Finset RequestKey) (k : RequestKey)

theorem firstRecord_isSome (rows : List Download) :
    (db.firstRecord rows).isSome = true ↔ ∃ d, d ∈ rows := by
  have hne : rows.mergeSort (fun a b => a.id ≤ b.id) ≠ [] ↔ ∃ d, d ∈ rows := by
    rw [← List.isEmpty_eq_false_iff, List.isEmpty_eq_false_iff_exists_mem]
    exact exists_congr fun _ => List.mem_mergeSort
  rw [Database.firstRecord, Option.isSome_map, List.isSome_head?, hne]

theorem findActiveForRequest_isSome :
    (db.findActiveForRequest k.1 k.2).isSome = true ↔ Held db k := by
  rw [Database.findActiveForRequest, firstRecord_isSome]
  refine exists_congr fun d => ?_
  simp only [List.mem_filter, Bool.and_eq_true, Bool.or_eq_true, decide_eq_true_eq,
    List.isEmpty_iff, List.filter_eq_nil_iff, List.any_eq_true, not_and, Holds]
  refine and_congr_right fun _ => and_congr_right fun _ => or_congr ?_ ?_
  · exact ⟨fun h => ⟨h.1.1, h.1.2, fun s hs hd hm => h.2 s hs ⟨hd, hm⟩⟩,
      fun h => ⟨⟨h.1, h.2.1⟩, fun s hs hdm => h.2.2 s hs hdm.1 hdm.2⟩⟩
  · exact ⟨fun ⟨s, hs, hu⟩ => ⟨s, hs.1, hs.2.1.1, hs.2.1.2, hs.2.2, hu⟩,
      fun ⟨s, hs, hd, hm, hn, hu⟩ => ⟨s, ⟨hs, ⟨hd, hm⟩, hn⟩, hu⟩⟩

theorem mem_claimsOfRequests (c : CoverageClaim) (r : MediaRequest) :
    (c, r) ∈ db.claimsOfRequests ↔
      c ∈ db.claims ∧ r ∈ db.requests ∧ c.mediaRequestId = some r.id := by
  simp only [Database.claimsOfRequests, List.mem_flatMap, List.mem_map, List.mem_filter,
    decide_eq_true_eq, Prod.mk.injEq]
  exact ⟨fun ⟨_, hc, _, hr, heq, hreq⟩ => heq ▸ hreq ▸ ⟨hc, hr⟩,
    fun ⟨hc, hr, hid⟩ => ⟨c, hc, r, ⟨hr, hid⟩, rfl, rfl⟩⟩

theorem findActiveCoverageTitle_isSome (k : TitleKey) :
    (db.findActiveCoverageTitle k.1 k.2).isSome = true ↔ Covered db k := by
  rcases k with ⟨tmdbId, season⟩
  cases season with
  | none =>
    -- Neither a query is sent for a movie, nor is there a claim for one.
    refine ⟨fun h => absurd h nofun, ?_⟩
    rintro ⟨_, _, _, _, _, _, _, _, hsome, _⟩
    simp at hsome
  | some season =>
    simp only [Database.findActiveCoverageTitle, firstRecord_isSome, List.mem_flatMap,
      List.mem_map, List.mem_filter, Prod.exists, mem_claimsOfRequests, Bool.and_eq_true,
      decide_eq_true_eq]
    constructor
    · rintro ⟨d, d', hd', c, r, ⟨⟨hc, hr, hid⟩, ⟨⟨⟨⟨hdown, htmdb⟩, htv⟩, hn⟩, hact⟩, hlive⟩, rfl⟩
      exact ⟨d', hd', hlive, c, hc, hdown, hact, hn, rfl, r, hr, hid, htmdb, htv⟩
    · rintro ⟨d, hd, hlive, c, hc, hdown, hact, hn, -, r, hr, hid, htmdb, htv⟩
      exact ⟨d, d, hd, c, r, ⟨⟨hc, hr, hid⟩, ⟨⟨⟨⟨hdown, htmdb⟩, htv⟩, hn⟩, hact⟩, hlive⟩, rfl⟩

/-! ### Many keys -/

theorem mem_addScalarKey (scopes : List DownloadScope) (row : Download) (active : Finset RequestKey)
    (k : RequestKey) :
    k ∈ addScalarKey keySet scopes row active ↔ k ∈ active ∨
      (k ∈ keySet ∧ row.mediaRequestId = some k.1 ∧ row.season = k.2 ∧
        ∀ s ∈ scopes, s.mediaRequestId = some k.1 → s.seasonNumber ≠ k.2) := by
  rcases k with ⟨mediaRequestId, season⟩
  unfold addScalarKey
  cases hrow : row.mediaRequestId with
  | none => simp
  | some rowRequestId =>
    dsimp only
    split
    · rename_i h
      simp only [Bool.not_eq_true', List.any_eq_false, Bool.and_eq_true, decide_eq_true_eq,
        not_and] at h
      rw [Finset.mem_insert, or_comm]
      refine or_congr_right ⟨fun heq => ?_, fun hk => ?_⟩
      · obtain ⟨rfl, rfl⟩ := Prod.mk.inj heq
        exact ⟨h.1, rfl, rfl, h.2⟩
      · rw [Option.some.inj hk.2.1, hk.2.2.1]
    · rename_i h
      simp only [Bool.not_eq_true', List.any_eq_false, Bool.and_eq_true, decide_eq_true_eq,
        not_and] at h
      refine ⟨.inl, fun hk => hk.elim id fun hk => absurd ?_ (h ?_)⟩
      · rw [Option.some.inj hk.2.1, hk.2.2.1]
        exact hk.2.2.2
      · rw [Option.some.inj hk.2.1, hk.2.2.1]
        exact hk.1

theorem mem_addScopedKey (active : Finset RequestKey) (s : DownloadScope) (k : RequestKey) :
    k ∈ addScopedKey keySet active s ↔ k ∈ active ∨
      (k ∈ keySet ∧ s.mediaRequestId = some k.1 ∧ s.seasonNumber = k.2 ∧
        s.status.unresolved = true) := by
  rcases k with ⟨mediaRequestId, season⟩
  unfold addScopedKey
  cases hs : s.mediaRequestId with
  | none => simp
  | some scopeRequestId =>
    dsimp only
    split
    · rename_i h
      rw [Finset.mem_insert, or_comm]
      refine or_congr_right ⟨fun heq => ?_, fun hk => ?_⟩
      · obtain ⟨rfl, rfl⟩ := Prod.mk.inj heq
        exact ⟨h.2, rfl, rfl, h.1⟩
      · rw [Option.some.inj hk.2.1, hk.2.2.1]
    · rename_i h
      refine ⟨.inl, fun hk => hk.elim id fun hk => absurd ⟨hk.2.2.2, ?_⟩ h⟩
      rw [Option.some.inj hk.2.1, hk.2.2.1]
      exact hk.1

theorem mem_foldl {α β : Type} [DecidableEq β] {f : Finset β → α → Finset β} {p : α → Prop}
    {k : β} (as : List α) (hf : ∀ a ∈ as, ∀ active, k ∈ f active a ↔ k ∈ active ∨ p a)
    (active : Finset β) : k ∈ as.foldl f active ↔ k ∈ active ∨ ∃ a ∈ as, p a := by
  induction as generalizing active with
  | nil => simp
  | cons a as ih =>
    rw [List.foldl_cons, ih fun a' ha' => hf a' (List.mem_cons_of_mem a ha'),
      hf a List.mem_cons_self, or_assoc]
    simp

-- A turn of the loop adds the keys the row holds, as far as they are asked for and its scopes
-- are among those that were fetched.
theorem mem_addKeysOf (scopes : List DownloadScope) (row : Download) (active : Finset RequestKey)
    (k : RequestKey)
    (hscope : ∀ s, k ∈ keySet → s.downloadId = row.id → s.mediaRequestId = some k.1 → (s ∈ scopes ↔
      s ∈ db.scopes)) :
    k ∈ addKeysOf keySet scopes active row ↔ k ∈ active ∨ (k ∈ keySet ∧ Holds db row k) := by
  rw [addKeysOf, mem_foldl _ fun s _ active => mem_addScopedKey keySet active s k,
    mem_addScalarKey, or_assoc]
  refine or_congr_right ?_
  simp only [List.mem_filter, decide_eq_true_eq, Holds]
  constructor
  · rintro (⟨hk, hreq, hseas, hno⟩ | ⟨s, ⟨hs, hd⟩, hk, hreq, hseas, hunres⟩)
    · exact ⟨hk, .inl ⟨hreq, hseas, fun s hs hd hm =>
      hno s ⟨(hscope s hk hd hm).mpr hs, hd⟩ hm⟩⟩
    · exact ⟨hk, .inr ⟨s, (hscope s hk hd hreq).mp hs, hd, hreq, hseas, hunres⟩⟩
  · rintro ⟨hk, ⟨hreq, hseas, hno⟩ | ⟨s, hs, hd, hreq, hseas, hunres⟩⟩
    · exact .inl ⟨hk, hreq, hseas, fun s hs hm =>
      hno s ((hscope s hk hs.2 hm).mp hs.1) hs.2 hm⟩
    · exact .inr ⟨s, ⟨(hscope s hk hd hreq).mpr hs, hd⟩, hk, hreq, hseas, hunres⟩

theorem mem_worthExamining (requestIds : List Nat) (d : Download) :
    d ∈ db.worthExamining requestIds ↔ d ∈ db.downloads ∧ d.active = true ∧
      ((∃ m ∈ requestIds, d.mediaRequestId = some m) ∨
        ∃ s ∈ db.scopes, s.downloadId = d.id ∧ ∃ m ∈ requestIds, s.mediaRequestId = some m) := by
  simp only [Database.worthExamining, List.mem_filter, Bool.and_eq_true, Bool.or_eq_true,
    List.any_eq_true, Option.any_eq_true, decide_eq_true_eq]
  simp only [and_comm]

theorem worthExamining_of_holds {db : Database} {requestIds : List Nat} {d : Download}
    {k : RequestKey} (hd : d ∈ db.downloads) (hact : d.active = true) (h : Holds db d k)
    (hk : k.1 ∈ requestIds) : d ∈ db.worthExamining requestIds := by
  rw [mem_worthExamining]
  refine ⟨hd, hact, ?_⟩
  rcases h with ⟨hreq, -, -⟩ | ⟨s, hs, hdown, hreq, -, -⟩
  · exact .inl ⟨k.1, hk, hreq⟩
  · exact .inr ⟨s, hs, hdown, k.1, hk, hreq⟩

-- The queries for many keys find those for which a download is in flight.
theorem mem_findActiveForRequests (keys : List RequestKey) (k : RequestKey) :
    k ∈ db.findActiveForRequests keys ↔ k ∈ keys ∧ Held db k := by
  unfold Database.findActiveForRequests
  split
  · rename_i hnil
    simp [List.isEmpty_iff.mp hnil]
  dsimp only
  set requestIds := (keys.map Prod.fst).dedup with hids
  have hmem : ∀ {k : RequestKey}, k ∈ keys → k.1 ∈ requestIds := fun hk =>
    List.mem_dedup.mpr (List.mem_map_of_mem hk)
  split
  · rename_i hnil
    refine ⟨fun h => absurd h (Finset.notMem_empty k), ?_⟩
    rintro ⟨hk, d, hd, hact, hhold⟩
    have hworth := worthExamining_of_holds hd hact hhold (hmem hk)
    rw [List.isEmpty_iff.mp hnil] at hworth
    exact absurd hworth List.not_mem_nil
  · set rows := db.worthExamining requestIds with hrows
    -- Of the rows that are examined, no scope for a key that is asked for is missing.
    have hscope : ∀ row ∈ rows, ∀ k ∈ keys.toFinset, ∀ s, s.downloadId = row.id →
        s.mediaRequestId = some k.1 →
        (s ∈ db.scopesWorthExamining (rows.map (·.id)) requestIds ↔ s ∈ db.scopes) := by
      intro row hrow k hk s hd hm
      have hid : s.downloadId ∈ rows.map (·.id) := hd ▸ List.mem_map_of_mem hrow
      simp only [Database.scopesWorthExamining, List.mem_filter, Bool.and_eq_true,
        decide_eq_true_eq, hm, Option.any_some, hid, hmem (List.mem_toFinset.mp hk), and_true]
    rw [mem_foldl rows
      fun row hrow active => mem_addKeysOf db keys.toFinset _ row active k fun s hk =>
        hscope row hrow k hk s]
    simp only [Finset.notMem_empty, false_or, List.mem_toFinset]
    constructor
    · rintro ⟨r, hr, hk, hhold⟩
      have hrow := (mem_worthExamining db requestIds r).mp hr
      exact ⟨hk, r, hrow.1, hrow.2.1, hhold⟩
    · rintro ⟨hk, d, hd, hact, hhold⟩
      exact ⟨d, worthExamining_of_holds hd hact hhold (hmem hk), hk, hhold⟩

theorem mem_findActiveCoverageTitles (keys : List TitleKey) (k : TitleKey) :
    k ∈ db.findActiveCoverageTitles keys ↔ k ∈ keys ∧ Covered db k := by
  unfold Database.findActiveCoverageTitles
  split
  · rename_i hnil
    simp [List.isEmpty_iff.mp hnil]
  rcases k with ⟨tmdbId, season⟩
  simp only [List.mem_toFinset, List.mem_filter, decide_eq_true_eq, List.mem_flatMap,
    List.mem_map, Prod.exists, mem_claimsOfRequests, Bool.and_eq_true, Prod.mk.injEq]
  constructor
  · rintro ⟨⟨c, r, ⟨hc, hr, hid⟩, d, ⟨hd, ⟨⟨⟨⟨hdown, -⟩, htv⟩, hact⟩, hsome⟩, hlive⟩, rfl, rfl⟩,
      hk⟩
    exact ⟨hk, d, hd, hlive, c, hc, hdown.symm, hact, rfl, hsome, r, hr, hid, rfl, htv⟩
  · rintro ⟨hk, d, hd, hlive, c, hc, hdown, hact, hn, hsome, r, hr, hid, htmdb, htv⟩
    subst hn htmdb
    exact ⟨⟨c, r, ⟨hc, hr, hid⟩, d, ⟨hd, ⟨⟨⟨⟨hdown.symm, List.mem_dedup.mpr
      (List.mem_map.mpr ⟨_, hk, rfl⟩)⟩, htv⟩, hact⟩, hsome⟩, hlive⟩, rfl, rfl⟩, hk⟩

/-! ### Both together -/

/-- For any rows and any keys, the guards over many keys answer with those for
    which the guard over one finds a row. -/
theorem guards_agree (db : Database) (keys : List RequestKey) (titles : List TitleKey) :
    db.findActiveForRequests keys =
        keys.toFinset.filter (fun k => (db.findActiveForRequest k.1 k.2).isSome = true) ∧
      db.findActiveCoverageTitles titles =
        titles.toFinset.filter (fun k => (db.findActiveCoverageTitle k.1 k.2).isSome = true) := by
  constructor
  · ext k
    rw [mem_findActiveForRequests, Finset.mem_filter, List.mem_toFinset,
      findActiveForRequest_isSome]
  · ext k
    rw [mem_findActiveCoverageTitles, Finset.mem_filter, List.mem_toFinset,
      findActiveCoverageTitle_isSome]

end InFlight

end PlexManager
