import PlexManager.Core.SeasonPlan

/-!
# What a repeated request does to the seasons that are there

The first pass of a season plan moves a tracked season only out of `evicted`
and `waitingForAirDate`, and, for episodes, out of the two statuses that are
done; it moves it to where a new season would start. So it regresses no work.
The second pass does not look at where a season is: it parks every season that
the plan parks, also one that downloads, or that Plex has. Whether a request
spares the work that is there is therefore decided by the seasons its plan
parks, and by nothing else.

## Theorems

* `spares_work_iff`: When a joined request spares the work that is there.
* `parked_while_downloading`: A season that downloads is parked.
-/

namespace PlexManager

namespace Seasons

open KeyedTable

/-! ### The first pass -/

/-- A season stays, or starts over from a status that waits for a request, or is
    reopened for its episodes. -/
inductive Advance (episodeScoped : Bool) : Option RequestStatus → Option RequestStatus → Prop
  | stay (s : Option RequestStatus) : Advance episodeScoped s s
  | start {s : Option RequestStatus} {t : RequestStatus}
      (hs : s ∈ [none, some .evicted, some .waitingForAirDate]) (ht : t ∈ [.pending, .available]) :
      Advance episodeScoped s (some t)
  | reopen {s : RequestStatus} (hscope : episodeScoped = true) (hs : s ∈ realDoneStatuses) :
      Advance episodeScoped (some s) (some .pending)

variable {episodeScoped : Bool} {s t : Option RequestStatus}

theorem Advance.trans {u : Option RequestStatus} (h : Advance episodeScoped s t)
    (h' : Advance episodeScoped t u) : Advance episodeScoped s u := by
  cases h with
  | stay => exact h'
  | start hs ht =>
    cases h' with
    | stay => exact .start hs ht
    | start _ hu => exact .start hs hu
    | reopen _ _ => exact .start hs (by simp)
  | reopen hscope hs =>
    cases h' with
    | stay => exact .reopen hscope hs
    | start ht _ | reopen _ ht => exact absurd ht (by decide)

theorem Advance.not_waiting (h : Advance episodeScoped s t) (hs : s ≠ some .waitingForAirDate) :
    t ≠ some .waitingForAirDate := by
  cases h with
  | stay => exact hs
  | start _ ht =>
    rintro ⟨⟩
    exact absurd ht (by decide)
  | reopen _ _ => simp

theorem status_rearm (db : Show) (now : Int) (mediaRequestId : Nat) (seasonNumber : Int)
    (status : RequestStatus) (allowedFrom : List RequestStatus) (id : Nat) (n : Int) :
    (rearm db now mediaRequestId seasonNumber status allowedFrom).status id n =
      (db.status id n).map fun s =>
        if (id = mediaRequestId ∧ n = seasonNumber) ∧ s ∈ allowedFrom then status else s := by
  rw [← Show.status_setStatusIfIn db now]
  unfold rearm
  split
  · next heq => rw [Show.status_scheduleSearch, heq]
  · next heq => rw [heq]

def ensuredStatus (forcePending : Bool) (initialStatus : RequestStatus)
    (s : Option RequestStatus) : RequestStatus :=
  match s.getD initialStatus with
  | .evicted | .waitingForAirDate => initialStatus
  | s => if forcePending ∧ s ∈ realDoneStatuses then .pending else s

def startStatus (evicted : Int → Bool) (present : List Int) (n : Int) : RequestStatus :=
  if n ∈ present ∧ !evicted n then .available else .pending

variable (evicted : Int → Bool) (present : List Int) (forcePending : Bool) (n : Int)

theorem startStatus_mem : startStatus evicted present n ∈ [RequestStatus.pending, .available] := by
  unfold startStatus
  split
  · simp
  · simp

theorem status_ensureSeason (now : Int) (id : Nat) (forcePending : Bool) (db : Show) (n : Int)
    (id' : Nat) (m : Int) :
    (ensureSeason evicted present now id forcePending db n).status id' m =
      if id' = id ∧ m = n then
        some (ensuredStatus forcePending (startStatus evicted present n) (db.status id n))
      else db.status id' m := by
  unfold ensureSeason
  dsimp only
  rw [← startStatus]
  have hensure := db.status_ensure id n (startStatus evicted present n) (evicted n)
  have hat : (db.ensure id n (startStatus evicted present n) (evicted n)).status id n =
      some ((db.status id n).getD (startStatus evicted present n)) := by
    rw [hensure, if_pos ⟨rfl, rfl⟩]
    cases db.status id n with
    | none | some s => rfl
  have helse : ¬ (id' = id ∧ m = n) →
      (db.ensure id n (startStatus evicted present n) (evicted n)).status id' m =
        db.status id' m := by
    intro h
    rw [hensure, if_neg h, Option.or_none]
  rw [hat]
  unfold ensuredStatus
  by_cases h : id' = id ∧ m = n
  · rcases h with ⟨rfl, rfl⟩
    split
    · next heq => rw [status_rearm, hat, Option.some.inj heq]; simp
    · next heq => rw [status_rearm, hat, Option.some.inj heq]; simp
    · next s hne hnw heq =>
      split
      · next hdone => rw [status_rearm, hat, Option.some.inj heq]; simp [hdone.2, hdone.1]
      · next hdone => rw [hat, Option.some.inj heq]; simp [hdone]
    · next heq => cases heq
  · rw [if_neg h]
    split
    · rw [status_rearm, helse h]; simp [h]
    · rw [status_rearm, helse h]; simp [h]
    · split
      · rw [status_rearm, helse h]; simp [h]
      · exact helse h
    · next heq => cases heq

theorem ensuredStatus_ne_waiting (evicted : Int → Bool) (present : List Int) (n : Int)
    (s : Option RequestStatus) :
    ensuredStatus forcePending (startStatus evicted present n) s ≠ .waitingForAirDate := by
  have hbeg : startStatus evicted present n ≠ .waitingForAirDate := by
    intro h
    exact absurd (h ▸ startStatus_mem evicted present n) (by decide)
  unfold ensuredStatus
  split
  · exact hbeg
  · exact hbeg
  · next hnw =>
    split
    · simp
    · exact hnw

theorem advance_ensuredStatus (evicted : Int → Bool) (present : List Int) (n : Int)
    (s : Option RequestStatus) :
    Advance forcePending s
      (some (ensuredStatus forcePending (startStatus evicted present n) s)) := by
  have hbeg := startStatus_mem evicted present n
  cases s with
  | none =>
    refine .start (by simp) ?_
    unfold ensuredStatus
    split
    · exact hbeg
    · exact hbeg
    · split
      · simp
      · exact hbeg
  | some s =>
    unfold ensuredStatus
    split
    · next heq => exact .start (by rw [← heq]; simp) hbeg
    · next heq => exact .start (by rw [← heq]; simp) hbeg
    · split
      · next hdone => exact .reopen hdone.1 hdone.2
      · exact .stay _

-- The loop of the first pass. A season it names is not left waiting.
theorem advance_foldl (now : Int) (id : Nat) (forcePending : Bool) (m : Int) :
    ∀ (seasons : List Int) (db : Show), Advance forcePending (db.status id m)
          ((seasons.foldl (ensureSeason evicted present now id forcePending) db).status id m) ∧
        (m ∈ seasons →
          (seasons.foldl (ensureSeason evicted present now id forcePending) db).status id m ≠
            some .waitingForAirDate) ∧
        (m ∉ seasons →
          (seasons.foldl (ensureSeason evicted present now id forcePending) db).status id m =
            db.status id m) := by
  intro seasons
  induction seasons with
  | nil =>
    intro db
    exact ⟨.stay _, nofun, fun _ => rfl⟩
  | cons n rest ih =>
    intro db
    rcases ih (ensureSeason evicted present now id forcePending db n) with ⟨hadv, hin, hout⟩
    rw [status_ensureSeason] at hadv hout
    by_cases hmn : m = n
    · subst hmn
      rw [if_pos ⟨rfl, rfl⟩] at hadv
      refine ⟨(advance_ensuredStatus _ _ _ _ _).trans hadv, fun _ => ?_,
        fun h => absurd List.mem_cons_self h⟩
      refine hadv.not_waiting fun h => ?_
      exact ensuredStatus_ne_waiting _ _ _ _ _ (Option.some.inj h)
    · rw [if_neg fun h => hmn h.2] at hadv hout
      refine ⟨hadv, fun h => hin ((List.mem_cons.mp h).resolve_left hmn), fun h => hout ?_⟩
      exact fun hrest => h (List.mem_cons_of_mem _ hrest)

variable {now : Int} {id : Nat} {db db' : Show} {library : Option Crawl} {seasons : List Int}
  {plan : TvSeasonPlan}

theorem advance_ensureSeasons {forcePending : Bool} {present : Option (List Int)}
    (h : ensureSeasons now library id seasons forcePending present db = some db') (m : Int) :
    Advance forcePending (db.status id m) (db'.status id m) ∧
      (m ∈ seasons → db'.status id m ≠ some .waitingForAirDate) ∧
      (m ∉ seasons → db'.status id m = db.status id m) := by
  unfold ensureSeasons at h
  rw [status_recomputeParent h]
  exact advance_foldl _ _ now id forcePending m seasons db

/-! ### The second pass -/

theorem status_setSeasonStatus {n : Int} {status : RequestStatus}
    (h : setSeasonStatus now id n status false db = some db') (m : Int) :
    db'.status id m = if m = n then some status else db.status id m := by
  unfold setSeasonStatus at h
  rw [status_recomputeParent h, Show.status_setStatus, Show.status_ensure]
  by_cases hmn : m = n
  · subst hmn
    cases db.status id m with
    | none | some s => simp
  · simp [hmn]

theorem status_park {m : Int} :
    ∀ {waiting : List Int} {db db' : Show},
      waiting.foldlM (fun db n => setSeasonStatus now id n .waitingForAirDate false db) db =
        some db' →
      db'.status id m =
        if m ∈ waiting then some .waitingForAirDate else db.status id m := by
  intro waiting
  induction waiting with
  | nil =>
    intro db db' h
    rw [← Option.some.inj h, if_neg nofun]
  | cons n rest ih =>
    intro db db' h
    rcases Option.bind_eq_some_iff.mp h with ⟨db₁, hset, hrest⟩
    rw [ih hrest, status_setSeasonStatus hset]
    by_cases hmn : m = n
    · subst hmn
      simp
    · by_cases hmrest : m ∈ rest
      · simp [hmrest]
      · simp [hmn, hmrest]

-- Both passes: a season that the plan parks waits, and any other season is where the first
-- pass left it.
theorem status_ensureTvSeasonPlan {present : Option (List Int)}
    (h : ensureTvSeasonPlan now library id plan present db = some db') (m : Int) :
    (m ∈ plan.waitingSeasons → db'.status id m = some .waitingForAirDate) ∧
      (m ∉ plan.waitingSeasons →
        Advance plan.episodeScoped (db.status id m) (db'.status id m) ∧
          (m ∈ plan.seasonNumbers → db'.status id m ≠ some .waitingForAirDate)) := by
  rcases Option.bind_eq_some_iff.mp h with ⟨db₁, hensure, hpark⟩
  have hm := status_park (m := m) hpark
  simp only [mem_sortedSet] at hm
  constructor
  · intro hw
    rw [hm, if_pos hw]
  · intro hw
    rw [hm, if_neg hw]
    rcases advance_ensureSeasons hensure m with ⟨hadv, hin, -⟩
    exact ⟨hadv, hin⟩

/-! ### Joining -/

@[simp] theorem status_mergeIntent (db : Show) (record : MediaRequest) (seasons : List Int)
    (episodes : List (Int × List Int)) (id : Nat) (n : Int) :
    (db.mergeIntent record seasons episodes).status id n = db.status id n := rfl

/-- A call for a show was joined to a request for it that is there, and its plan
    was applied to that request. -/
inductive Joined (now : Int) (library : Option Crawl) (id : Nat) (plan : TvSeasonPlan)
    (seasons : List Int) (episodes : List (Int × List Int)) (db : Show) : Show → Prop
  | grow {db' : Show}
      (h : growTvDedupJoin now library id plan seasons episodes db = some (true, db')) :
      Joined now library id plan seasons episodes db db'
  | settled {record : MediaRequest} {db' : Show} (hid : record.id = id)
      (h : joinSettled now library record plan seasons episodes db = some db') :
      Joined now library id plan seasons episodes db db'

theorem Joined.ensured {episodes : List (Int × List Int)}
    (h : Joined now library id plan seasons episodes db db') :
    ∃ present db₁, ensureTvSeasonPlan now library id plan present db = some db₁ ∧
      ∀ m, db'.status id m = db₁.status id m := by
  cases h with
  | grow h =>
    unfold growTvDedupJoin at h
    dsimp only at h
    split at h
    · cases h
    split at h
    · cases h
    rcases Option.map_eq_some_iff.mp h with ⟨db₁, hplan, heq⟩
    cases heq
    exact ⟨_, db₁, hplan, fun m => status_mergeIntent ..⟩
  | settled hid h =>
    subst hid
    rcases Option.map_eq_some_iff.mp h with ⟨db₁, hplan, rfl⟩
    exact ⟨none, db₁, hplan, fun m => status_mergeIntent ..⟩

/-! ### Sparing the work that is there -/

def PlexHas (library : Option Crawl) (n : Int) : Prop :=
  ∃ present, library = some (some present) ∧ n ∈ present

def workStatuses : List RequestStatus :=
  [.downloading, .importBlocked, .searching, .noAcceptableRelease, .completed, .available]

/-- What a repeated request owes to the seasons that are tracked before it: only
    an evicted or a waiting season moves, or for episodes a done one; no season
    at work is parked; and no season is that Plex has. -/
structure SparesWork (library : Option Crawl) (plan : TvSeasonPlan)
    (before after : Int → Option RequestStatus) : Prop where
  unchanged : ∀ n s, before n = some s → s ≠ .evicted → s ≠ .waitingForAirDate →
    ¬ (plan.episodeScoped = true ∧ s ∈ realDoneStatuses) → after n = some s
  working : ∀ n s, before n = some s → s ∈ workStatuses → after n ≠ some .waitingForAirDate
  watchable : ∀ n ∈ plan.seasonNumbers, PlexHas library n → after n ≠ some .waitingForAirDate

/-- A joined request spares the work that is there if and only if every season
    it names ahead of TMDB is one that Plex does not have, and that was evicted,
    waiting or not tracked. -/
theorem spares_work_iff (now : Int) (library : Option Crawl) (id : Nat) (seasonCount : Int)
    (seasons : List Int) (episodes : List (Int × List Int)) (defaultWaitingFirstSeason : Bool)
    (db db' : Show)
    (h : Joined now library id
      (resolveTvSeasonPlan seasonCount seasons episodes defaultWaitingFirstSeason)
      seasons episodes db db') :
    SparesWork library (resolveTvSeasonPlan seasonCount seasons episodes defaultWaitingFirstSeason)
        (db.status id) (db'.status id) ↔
      ∀ n, NamedAhead seasonCount seasons episodes defaultWaitingFirstSeason n →
        ¬ PlexHas library n ∧
          ∀ s, db.status id n = some s → s = .evicted ∨ s = .waitingForAirDate := by
  simp only [← mem_waiting_iff]
  have hsub := waiting_subset seasonCount seasons episodes defaultWaitingFirstSeason
  rcases h.ensured with ⟨present, db₁, hplan, hst⟩
  generalize resolveTvSeasonPlan seasonCount seasons episodes defaultWaitingFirstSeason = plan
    at h hsub hplan
  have hpass := status_ensureTvSeasonPlan hplan
  constructor
  · intro hspr n hn
    have hpark : db'.status id n = some .waitingForAirDate :=
      (hst n).trans ((hpass n).1 hn)
    refine ⟨fun hplex => hspr.watchable n (hsub n hn) hplex hpark, fun s hs => ?_⟩
    by_contra hmove
    rw [not_or] at hmove
    by_cases hdone : plan.episodeScoped = true ∧ s ∈ realDoneStatuses
    · have hwork : s ∈ workStatuses := by
        rcases List.mem_pair.mp hdone.2 with rfl | rfl
        · decide
        · decide
      exact hspr.working n s hs hwork hpark
    · have hkept := hspr.unchanged n s hs hmove.1 hmove.2 hdone
      exact hmove.2 (Option.some.inj (hkept.symm.trans hpark))
  · intro hparks
    -- A tracked season that is at work is not parked, and the first pass leaves it.
    have hnot : ∀ n s, db.status id n = some s → s ≠ .evicted → s ≠ .waitingForAirDate →
        n ∉ plan.waitingSeasons := by
      intro n s hs hev hw hn
      exact ((hparks n hn).2 s hs).elim hev hw
    refine ⟨fun n s hs hev hw hscope => ?_, fun n s hs hwork => ?_, fun n hn hplex => ?_⟩
    · have hadv := ((hpass n).2 (hnot n s hs hev hw)).1
      rw [hs] at hadv
      rw [hst n]
      generalize db₁.status id n = t at hadv
      cases hadv with
      | stay => rfl
      | start hbeg _ => simp [hev, hw] at hbeg
      | reopen heps hdone => exact absurd ⟨heps, hdone⟩ hscope
    · have hev : s ≠ .evicted := fun heq => absurd (heq ▸ hwork) (by decide)
      have hw : s ≠ .waitingForAirDate := fun heq => absurd (heq ▸ hwork) (by decide)
      have hadv := ((hpass n).2 (hnot n s hs hev hw)).1
      rw [hst n]
      exact hadv.not_waiting (by rw [hs]; simpa using hw)
    · have hn' : n ∉ plan.waitingSeasons := fun hwait => (hparks n hwait).1 hplex
      rw [hst n]
      exact ((hpass n).2 hn').2 hn

/-! ### A season that downloads -/

def thirdSeason (status : RequestStatus) : Show where
  requests := Table.empty.insert { id := 1, status := status }
  seasons := Table.empty.insert { mediaRequestId := 1, seasonNumber := 3, status := status }

/-- A season that waits may be asked for again. -/
theorem spares_work_iff_waiting :
    SparesWork none (resolveTvSeasonPlan 2 [3] [] false)
      ((thirdSeason .waitingForAirDate).status 1) ((thirdSeason .waitingForAirDate).status 1) :=
  (spares_work_iff 0 none 1 2 [3] [] false (thirdSeason .waitingForAirDate)
    (thirdSeason .waitingForAirDate) (.grow (by decide))).mpr <| by
      intro n hn
      have hn3 : n = 3 := by
        simpa using hn.1
      subst hn3
      refine ⟨?_, fun s hs => .inr ?_⟩
      · rintro ⟨present, hlib, -⟩
        cases hlib
      · have hwait : (thirdSeason .waitingForAirDate).status 1 3 = some .waitingForAirDate := rfl
        exact Option.some.inj (hs.symm.trans hwait)

/-- TMDB has two seasons of the show, the third one downloads, and it is asked
    for again: it is parked, and the request with it. -/
theorem parked_while_downloading :
    ∃ db', growTvDedupJoin 0 none 1 (resolveTvSeasonPlan 2 [3] [] false) [3] []
        (thirdSeason .downloading) = some (true, db') ∧
      (thirdSeason .downloading).status 1 3 = some .downloading ∧
      db'.status 1 3 = some .waitingForAirDate ∧
      ¬ SparesWork none (resolveTvSeasonPlan 2 [3] [] false)
        ((thirdSeason .downloading).status 1) (db'.status 1) := by
  refine ⟨thirdSeason .waitingForAirDate, by decide, rfl, rfl, fun hspr => ?_⟩
  exact hspr.working 3 .downloading rfl (by decide) rfl

end Seasons

end PlexManager
