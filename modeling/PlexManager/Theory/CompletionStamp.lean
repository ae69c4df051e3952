import PlexManager.Core.CompletionStamp

/-!
# The stamp says whether the show is completed

The condition of the two statements looks at no stamp, so it is the same before the first
and after the second: one of them at most writes, and a second pass finds nothing to do.
The greatest id of the imports of a download is below that of an eviction just when all of
them are.

## Theorems

* `completedAt_heal`: The stamp, whatever there was.
-/

namespace PlexManager

namespace CompletionStamp

open Blocklist Grab Seasons

variable (db : Database) (d : Download) (s : SeasonRequest) (r : MediaRequest)

/-- Whatever eviction of the show there is, an import of the download came later. -/
def Outlives : Prop :=
  ∀ evicted ∈ db.history, evicted.tmdbId = some r.tmdbId → evicted.eventType = .evicted →
    ∃ imported ∈ db.history, imported.torrentHash = some d.torrentHash ∧
      imported.eventType = .imported ∧ evicted.id ≤ imported.id

structure Backs : Prop where
  request : s.mediaRequestId = r.id
  status : s.status = .completed ∨ s.status = .available
  evidence : (∃ path, s.libraryPath = some path) ∨ ∃ d ∈ db.downloads,
    d.mediaRequestId = some r.id ∧ d.season = some s.seasonNumber ∧ d.status = .imported ∧
      Outlives db d r

theorem latestImportEventId_lt_iff (n : Nat) :
    (latestImportEventId db d).elim (-1) Int.ofNat < (n : Int) ↔
      ∀ e ∈ db.history, e.torrentHash = some d.torrentHash → e.eventType = .imported →
        e.id < n := by
  unfold latestImportEventId
  cases hmax : ((db.history.filter fun e => e.torrentHash = some d.torrentHash &&
      e.eventType = .imported).map (·.id)).max? with
  | none =>
    -- without an import every eviction counts
    rw [List.max?_eq_none_iff, List.map_eq_nil_iff, List.filter_eq_nil_iff] at hmax
    refine iff_of_true (by simp only [Option.elim_none]; omega) fun e he hhash htype => ?_
    exact absurd (by simp [hhash, htype]) (hmax e he)
  | some latest =>
    rw [List.max?_eq_some_iff] at hmax
    rcases hmax with ⟨hmem, hle⟩
    simp only [List.mem_map, List.mem_filter, Bool.and_eq_true, decide_eq_true_eq] at hmem hle
    rw [Option.elim_some, Int.ofNat_eq_natCast, Int.ofNat_lt]
    constructor
    · intro hlt e he hhash htype
      exact Nat.lt_of_le_of_lt (hle e.id ⟨e, ⟨he, hhash, htype⟩, rfl⟩) hlt
    · intro hall
      rcases hmem with ⟨e, ⟨he, hhash, htype⟩, rfl⟩
      exact hall e he hhash htype

theorem evictedSinceImport_iff : evictedSinceImport db d r = true ↔ ¬ Outlives db d r := by
  unfold evictedSinceImport Outlives
  simp only [List.any_eq_true, Bool.and_eq_true, decide_eq_true_eq, latestImportEventId_lt_iff]
  push Not
  constructor
  · rintro ⟨e, he, ⟨htmdb, htype⟩, hnext⟩
    exact ⟨e, he, htmdb, htype, hnext⟩
  · rintro ⟨e, he, htmdb, htype, hnext⟩
    exact ⟨e, he, ⟨htmdb, htype⟩, hnext⟩

theorem qualifying_iff : qualifying db r = true ↔ ∃ s ∈ db.seasons, Backs db s r := by
  unfold qualifying seasonGenuinelyImported
  simp only [List.any_eq_true, Bool.and_eq_true, Bool.or_eq_true, decide_eq_true_eq,
    Option.isSome_iff_exists, Bool.not_eq_true', ← Bool.not_eq_true, evictedSinceImport_iff,
      not_not]
  refine exists_congr fun s => and_congr_right fun _ => ⟨?_, ?_⟩
  · rintro ⟨⟨hreq, hst⟩, hpath | ⟨d, hd, ⟨⟨hown, hseas⟩, himp⟩, houtlives⟩⟩
    · exact ⟨hreq, hst, .inl hpath⟩
    · exact ⟨hreq, hst, .inr ⟨d, hd, hreq ▸ hown, hseas, himp, houtlives⟩⟩
  · rintro ⟨hreq, hst, hpath | ⟨d, hd, hown, hseas, himp, houtlives⟩⟩
    · exact ⟨⟨hreq, hst⟩, .inl hpath⟩
    · exact ⟨⟨hreq, hst⟩,
        .inr ⟨d, hd, ⟨⟨hreq ▸ hown, hseas⟩, himp⟩, houtlives⟩⟩

/-- What a row of the request is healed to. -/
def MediaRequest.healed (now : Int) : MediaRequest :=
  { r with completedAt := if qualifying db r then r.completedAt.or (some now) else none }

theorem healCompletedAt_eq (requestId : Nat) (now : Int) :
    healCompletedAt db requestId now =
      { db with requests := db.requests.map fun r =>
          if r.id = requestId then r.healed db now else r } := by
  unfold healCompletedAt Database.update
  simp only [List.map_map, Database.mk.injEq, and_self, and_true]
  refine List.map_congr_left fun r _ => ?_
  by_cases hid : r.id = requestId
  · rcases r with ⟨id, tmdbId, completedAt⟩
    obtain rfl : id = requestId := hid
    have hsame : ∀ requests stamp, qualifying { db with requests } ⟨id, tmdbId, stamp⟩ =
      qualifying db ⟨id, tmdbId, completedAt⟩ := fun _ _ => rfl
    cases hqual : qualifying db ⟨id, tmdbId, completedAt⟩ with
    | true | false =>
      cases completedAt with
      | none | some stamp => simp [hqual, hsame, MediaRequest.healed]
  · simp [hid]

/-- The stamp is there just when a season backs it. One that was there and stays backed is
    the one there was, no other row is touched, and a second pass changes nothing. -/
theorem completedAt_heal (db : Database) (requestId : Nat) (now : Int) (i : Nat)
    (r : MediaRequest) (hr : db.requests[i]? = some r) (hid : r.id = requestId) :
    (∃ completedAt,
      (healCompletedAt db requestId now).requests[i]? = some { r with completedAt } ∧
        (completedAt.isSome = true ↔ ∃ s ∈ db.seasons, Backs db s r) ∧
        ((∃ s ∈ db.seasons, Backs db s r) → r.completedAt.isSome = true →
          completedAt = r.completedAt)) ∧
      (∃ requests, healCompletedAt db requestId now = { db with requests } ∧
        ∀ (j : Nat) (other : MediaRequest), db.requests[j]? = some other → other.id ≠ requestId →
          requests[j]? = some other) ∧
      ∀ later, healCompletedAt (healCompletedAt db requestId now) requestId later =
        healCompletedAt db requestId now := by
  simp only [healCompletedAt_eq, ← qualifying_iff]
  refine ⟨⟨(r.healed db now).completedAt, ?_, ?_, ?_⟩, ⟨_, rfl, ?_⟩, ?_⟩
  · rw [List.getElem?_map, hr, Option.map_some, if_pos hid]
    rfl
  · simp only [MediaRequest.healed]
    cases qualifying db r with
    | true => simp
    | false => simp
  · intro hqual hstm
    rcases Option.isSome_iff_exists.mp hstm with ⟨stamp, hstm⟩
    rw [MediaRequest.healed, if_pos hqual, hstm, Option.some_or]
  · intro j other hoth hne
    rw [List.getElem?_map, hoth, Option.map_some, if_neg hne]
  · intro later
    rw [List.map_map]
    refine congrArg (fun requests => { db with requests }) (List.map_congr_left fun r _ => ?_)
    -- What qualifies a row does not look at its stamp.
    by_cases hid : r.id = requestId
    · have hsame : ∀ requests, qualifying { db with requests } (r.healed db now) =
        qualifying db r := fun _ => rfl
      have hid' : (r.healed db now).id = requestId := hid
      simp only [Function.comp_apply, if_pos hid, if_pos hid']
      rw [MediaRequest.healed, hsame]
      simp only [MediaRequest.healed]
      cases qualifying db r with
      | true => cases r.completedAt with
        | none | some stamp => rfl
      | false => rfl
    · simp [hid]

/-- A stamp that was lost is set again. -/
theorem completedAt_heal_lost :
    let season : SeasonRequest := ⟨1, 2, .available, some "/tv/Show", 0, none, none, none, false⟩
    let db : Database := ⟨[⟨1, 7, none⟩], [season], [], []⟩
    ∃ completedAt, (healCompletedAt db 1 5).requests[0]? = some ⟨1, 7, completedAt⟩ ∧
      completedAt.isSome = true := by
  intro season db
  rcases (completedAt_heal db 1 5 0 ⟨1, 7, none⟩ rfl rfl).1 with ⟨stamp, hstm, hback, -⟩
  refine ⟨stamp, hstm, hback.mpr ⟨_, List.mem_cons_self, ?_⟩⟩
  exact ⟨rfl, .inr rfl, .inl ⟨_, rfl⟩⟩

end CompletionStamp

end PlexManager
