import PlexManager.Core.SeasonRollup

/-!
# The status of a show is the fold of its seasons

A transaction that moves a season ends with the sum of the seasons being taken
and stored. Both go through what the session holds. Where it holds nothing of
the show, or what it holds has the statuses that are committed, the status that
is stored is the right one. Where it holds the row of another season as it was
before some other session moved it, the sum is wrong. And where the row of the
request that it holds is an old one with the very status that is to be stored,
nothing is stored.

So the status of every show is the fold of its seasons as long as no session
moves a season while it holds an old row of the show. The sessions do not see to
that: some reads of the program pass by what is held, but the ones that the sum
is taken from do not.

## Theorems

* `shows_folded`: In careful runs every show is the fold of its seasons.
* `show_not_folded`: A session with an old row that stores the wrong one.
-/

namespace PlexManager

namespace Rollup

open KeyedTable IdentityMap Transition
open Seasons (MediaRequest SeasonRequest rollupStatus)

/-! ### What is to hold -/

def statuses (t : Table SeasonRequest.key) (id : Nat) : List RequestStatus :=
  (t.rows.filter fun row => row.mediaRequestId = id).map (·.status)

/-- The status of a request with seasons is their fold, unless the tolerated
    conflict of an eviction kept it. -/
def Folded (requests : Table MediaRequest.id) (seasons : Table SeasonRequest.key)
    (kept : Nat → Bool) (id : Nat) : Prop :=
  ∀ r, requests.find id = some r → statuses seasons id ≠ [] → kept id = false →
    rollupStatus (statuses seasons id) = some r.status

def Desk.Folded (d : Desk) (id : Nat) : Prop :=
  Rollup.Folded d.requests.table d.seasons.table d.kept id

/-- What a session holds of a show has the statuses that are committed. -/
structure Current (d : Desk) (id : Nat) : Prop where
  request : d.requests.Agrees requestStatus id
  season : ∀ n, d.seasons.Agrees seasonStatus (id, n)

variable {titles : Grab.Titles} {now : Int} {d d' : Desk} {id : Nat}

/-! ### Writes to the seasons -/

/-- What a service does before it sums up the seasons of a show: only their rows
    are written, and what is held of them with the rows. -/
structure Moves (d d' : Desk) (id : Nat) : Prop where
  requests : d'.requests = d.requests
  kept : d'.kept = d.kept
  others : ∀ k, k ≠ id → statuses d'.seasons.table k = statuses d.seasons.table k
  agrees : ∀ key, d.seasons.Agrees seasonStatus key → d'.seasons.Agrees seasonStatus key

theorem Moves.refl (d : Desk) (id : Nat) : Moves d d id :=
  ⟨rfl, rfl, fun _ _ => rfl, fun _ h => h⟩

variable {n : Int} {d'' : Desk} {k : Nat} {p : SeasonRequest → Bool}
  {f : SeasonRequest → SeasonRequest} {tolerate : Bool} {status : RequestStatus}
  {hf : ∀ row, (f row).key = row.key} {seasons present evicted : List Int}

theorem Moves.trans (h : Moves d d' id) (h' : Moves d' d'' id) : Moves d d'' id where
  requests := h'.requests.trans h.requests
  kept := h'.kept.trans h.kept
  others k hk := (h'.others k hk).trans (h.others k hk)
  agrees key hkey := h'.agrees key (h.agrees key hkey)

theorem Moves.current (h : Moves d d' id) (hcur : Current d k) : Current d' k where
  request := by
    rw [h.requests]
    exact hcur.request
  season n := h.agrees (k, n) (hcur.season n)

theorem Moves.folded (h : Moves d d' id)
    (hsame : statuses d'.seasons.table k = statuses d.seasons.table k) (hfold : d.Folded k) :
    d'.Folded k := by
  unfold Desk.Folded Rollup.Folded at hfold ⊢
  rw [h.requests, h.kept, hsame]
  exact hfold

theorem moves_select (d : Desk) (p : SeasonRequest → Bool) (id : Nat) :
    Moves d { d with seasons := (d.seasons.select p).2 } id :=
  ⟨rfl, rfl, fun _ _ => rfl, fun _ h => h.select p⟩

theorem statuses_insert {t : Table SeasonRequest.key} {row : SeasonRequest}
    (hk : k ≠ row.mediaRequestId) : statuses (t.insert row) k = statuses t k := by
  unfold statuses Table.insert
  split
  · rfl
  · have hne : row.mediaRequestId ≠ k := fun heq => hk heq.symm
    simp [List.filter_append, hne]

theorem moves_ensure (d : Desk) (id : Nat) (n : Int) (status : RequestStatus) (regrab : Bool) :
    Moves d (ensure d id n status regrab).2 id := by
  unfold ensure find
  dsimp only
  cases hrow : (d.seasons.select fun row => row.key = (id, n)).1.head? with
  | some row => exact moves_select d _ id
  | none =>
    have hfree : d.seasons.table.find (id, n) = none := by
      refine Table.find_eq_none.mpr fun row hmem hkey => ?_
      simp only [View.select, List.head?_eq_none_iff, List.map_eq_nil_iff,
        List.filter_eq_nil_iff] at hrow
      exact hrow row hmem (by simpa using hkey)
    refine (moves_select d _ id).trans ⟨rfl, rfl, fun k hk => statuses_insert hk, ?_⟩
    exact fun key hkey => hkey.insert hfree

theorem table_ensure {regrab : Bool} (htrack : (d.seasons.table.find (id, n)).isSome = true) :
    (ensure d id n status regrab).2.seasons.table = d.seasons.table := by
  unfold ensure find
  dsimp only
  cases hrow : (d.seasons.select fun row => row.key = (id, n)).1.head? with
  | some row => rfl
  | none =>
    rcases Option.isSome_iff_exists.mp htrack with ⟨row, hfind⟩
    rcases Table.find_eq_some.mp hfind with ⟨hmem, hkey⟩
    simp only [View.select, List.head?_eq_none_iff, List.map_eq_nil_iff,
      List.filter_eq_nil_iff] at hrow
    exact absurd (by simpa using hkey) (hrow row hmem)

theorem moves_updateSeason (d : Desk) (id : Nat) (n : Int) (p : SeasonRequest → Bool)
    (f : SeasonRequest → SeasonRequest) (hf : ∀ row, (f row).key = row.key)
    (hst : ∀ row row' : SeasonRequest, row.status = row'.status →
      (f row).status = (f row').status) :
    Moves d (updateSeason d id n p f hf).2 id where
  requests := rfl
  kept := rfl
  others k hk := by
    have hreq : ∀ row, (f row).mediaRequestId = row.mediaRequestId := fun row =>
      congrArg Prod.fst (hf row)
    simp only [statuses, updateSeason, View.update, Table.rewrite, List.filter_map, List.map_map]
    -- The rows of another show are not the row of the key.
    have hrows : ∀ row : SeasonRequest, row.mediaRequestId = k →
        ¬ (row.key = (id, n) ∧ p row = true) := by
      rintro row hrow ⟨hkey, -⟩
      exact hk (hrow.symm.trans (congrArg Prod.fst hkey))
    have hfilt : (d.seasons.table.rows.filter
        ((fun row => Decidable.decide (row.mediaRequestId = k)) ∘ fun row =>
          if Decidable.decide (row.key = (id, n)) && p row then f row else row)) =
        d.seasons.table.rows.filter fun row => row.mediaRequestId = k := by
      refine List.filter_congr fun row _ => ?_
      rw [Function.comp_apply]
      split
      · rw [hreq]
      · rfl
    rw [hfilt]
    refine List.map_congr_left fun row hrow => ?_
    have hmem := (List.mem_filter.mp hrow).2
    rw [Function.comp_apply, if_neg]
    simpa using hrows row (by simpa using hmem)
  agrees key hkey := hkey.update hf hst

theorem statuses_updateSeason (h : (updateSeason d id n p f hf).1 = false) (k : Nat) :
    statuses (updateSeason d id n p f hf).2.seasons.table k = statuses d.seasons.table k := by
  have hnone : ∀ row ∈ d.seasons.table.rows,
      (Decidable.decide (row.key = (id, n)) && p row) = false := by
    simpa [updateSeason] using h
  exact congrArg (statuses · k) (View.table_update_of_forall hf hnone)

/-! ### The sum -/

/-- What a service does in one session to the show it is called for. -/
structure Effect (d d' : Desk) (id : Nat) : Prop where
  current : ∀ k, Current d k → Current d' k
  others : ∀ k, k ≠ id → d.Folded k → d'.Folded k
  folded : Current d id → d.Folded id → d'.Folded id

-- Where the rows agree, the statuses that are summed up are the committed ones.
theorem map_status_select (hcur : Current d id) :
    ((d.seasons.select fun row => row.mediaRequestId = id).1).map (·.status) =
      statuses d.seasons.table id := by
  refine View.map_select (c := seasonStatus) fun row _ hrow => ?_
  have hkey : row.key = (id, row.seasonNumber) := by
    simpa [SeasonRequest.key] using hrow
  rw [hkey]
  exact hcur.season _

theorem folded_congr {requests requests' : Table MediaRequest.id}
    {seasons seasons' : Table SeasonRequest.key} {kept kept' : Nat → Bool}
    (h : Rollup.Folded requests seasons kept id)
    (hreq : (requests'.find id).map (·.status) = (requests.find id).map (·.status))
    (hseas : statuses seasons' id = statuses seasons id) (hkept : kept' id = kept id) :
    Rollup.Folded requests' seasons' kept' id := by
  intro r hr hne hk
  rw [hr, Option.map_some] at hreq
  rcases Option.map_eq_some_iff.mp hreq.symm with ⟨s, hs, hst⟩
  rw [hseas, ← hst]
  exact h s hs (hseas ▸ hne) (hkept ▸ hk)

/-- What the sum does: it keeps what is held in step, and where the session is
    current the fold is stored. -/
structure Sums (d d' : Desk) (id : Nat) : Prop where
  current : ∀ k, Current d k → Current d' k
  others : ∀ k, k ≠ id → d.Folded k → d'.Folded k
  folded : Current d id → d'.Folded id

theorem Moves.sums (h : Moves d d' id) (h' : Sums d' d'' id) : Sums d d'' id where
  current k hk := h'.current k (h.current hk)
  others k hk hfold := h'.others k hk (h.folded (h.others k hk) hfold)
  folded hcur := h'.folded (h.current hcur)

theorem Sums.effect (h : Sums d d' id) : Effect d d' id :=
  ⟨h.current, h.others, fun hcur _ => h.folded hcur⟩

theorem Moves.trans_effect (h : Moves d d' id)
    (hsame : statuses d'.seasons.table id = statuses d.seasons.table id)
    (h' : Effect d' d'' id) : Effect d d'' id where
  current k hk := h'.current k (h.current hk)
  others k hk hfold := h'.others k hk (h.folded (h.others k hk) hfold)
  folded hcur hfold := h'.folded (h.current hcur) (h.folded hsame hfold)

theorem Effect.trans (h : Effect d d' id) (h' : Effect d' d'' id) :
    Effect d d'' id where
  current k hk := h'.current k (h.current k hk)
  others k hk hfold := h'.others k hk (h.others k hk hfold)
  folded hcur hfold := h'.folded (h.current id hcur) (h.folded hcur hfold)

theorem Moves.effect (h : Moves d d' id)
    (hsame : statuses d'.seasons.table id = statuses d.seasons.table id) : Effect d d' id where
  current _ hk := h.current hk
  others k hk := h.folded (h.others k hk)
  folded _ := h.folded hsame

theorem recomputeParent_sums (h : recomputeParent titles d id tolerate = some d') :
    Sums d d' id := by
  unfold recomputeParent at h
  dsimp only at h
  split at h
  · -- There is no season, and nothing is asked of the request.
    rename_i hnil
    cases h
    have hmove := moves_select d (fun row => row.mediaRequestId = id) id
    refine ⟨fun k hk => hmove.current hk, fun k hk => hmove.folded rfl, fun _ r hr hne => ?_⟩
    refine absurd ?_ hne
    simpa [statuses, View.select] using hnil
  · split at h
    · cases h
    rename_i status hrollup
    split at h
    · cases h
    rename_i requests hass
    have hoth : ∀ k, k ≠ id → requests.table.find k = d.requests.table.find k := by
      intro k hk
      rw [View.find_assign hass, if_neg (by simp [hk])]
    split at h
    · split at h
      · -- The conflict is tolerated.
        cases h
        refine ⟨fun k hk => ?_, fun k hk hfold => ?_, fun _ r _ _ hkept => ?_⟩
        · exact ⟨hk.request.forget id, fun n => (hk.season n).select _⟩
        · refine folded_congr hfold rfl rfl ?_
          exact Function.update_of_ne hk ..
        · have hfalse : Function.update d.kept id true id = false := hkept
          rw [Function.update_self] at hfalse
          cases hfalse
      · cases h
    · cases h
      refine ⟨fun k hk => ?_, fun k hk hfold => ?_, fun hcur r hr hne hkept => ?_⟩
      · exact ⟨hk.request.assign hass, fun n => (hk.season n).select _⟩
      · refine folded_congr hfold (by rw [hoth k hk]) rfl ?_
        exact Function.update_of_ne hk ..
      · rw [map_status_select hcur] at hrollup
        have hstored : (requests.table.find id).map requestStatus.get = some status := by
          have hfind := View.find_assign hass id
          cases hrow : d.requests.table.find id with
          | none =>
            rw [hrow] at hfind
            simp only [Option.map_none, ite_self] at hfind
            rw [hfind] at hr
            cases hr
          | some s =>
            refine (View.assign_stores_iff hass hrow).mpr fun hseen => ?_
            rcases Option.map_eq_some_iff.mp hseen with ⟨t, ht, hst⟩
            exact (View.seen_of_agrees hcur.request ht hrow).symm.trans hst
        rw [hr] at hstored
        exact hrollup.trans hstored.symm

/-! ### Services -/

theorem recomputeIf_effect (hst : ∀ row row' : SeasonRequest, row.status = row'.status →
      (f row).status = (f row').status)
    (h : recomputeIf titles (updateSeason d id n p f hf) id tolerate = some d') :
    Effect d d' id := by
  have hmove := moves_updateSeason d id n p f hf hst
  unfold recomputeIf at h
  split at h
  · rename_i e heq
    rw [heq] at hmove
    exact (hmove.sums (recomputeParent_sums h)).effect
  · rename_i e heq
    cases h
    have hsame := statuses_updateSeason (by rw [heq]) id
    rw [heq] at hmove hsame
    exact hmove.effect hsame

theorem status_moved_congr (status : RequestStatus) (row row' : SeasonRequest)
    (_ : row.status = row'.status) :
    (row.moved now status).status = (row'.moved now status).status := by
  rw [SeasonRequest.status_moved, SeasonRequest.status_moved]

theorem status_promoted_congr (row row' : SeasonRequest) (_ : row.status = row'.status) :
    (promoted row).status = (promoted row').status := rfl

theorem moves_setRowStatusIfIn (d : Desk) (id : Nat) (n : Int) (status : RequestStatus)
    (allowedFrom : List RequestStatus) (conditions : Bool) :
    Moves d (setRowStatusIfIn now d id n status allowedFrom conditions).2 id :=
  moves_updateSeason d id n _ _ _ (status_moved_congr status)

theorem setRowStatus_sums (h : (match setRowStatus now d id n status with
      | (true, d) => recomputeParent titles d id false
      | (false, _) => none) = some d') : Sums d d' id := by
  have hmove : Moves d (setRowStatus now d id n status).2 id :=
    moves_updateSeason d id n _ _ _ (status_moved_congr status)
  split at h
  · rename_i e heq
    rw [heq] at hmove
    exact hmove.sums (recomputeParent_sums h)
  · exact nomatch h

theorem setStatus_effect {skip : Bool}
    (h : setStatus now titles d id n status skip = some d') : Effect d d' id := by
  have hmove := moves_ensure d id n .pending false
  have hgot : (ensure d id n .pending false).1.status ∈ terminalSeasonStatuses →
      (ensure d id n .pending false).2.seasons.table = d.seasons.table := by
    -- A row that is new is pending, and a season that is pending is not skipped.
    intro hterm
    unfold ensure find at hterm ⊢
    dsimp only at hterm ⊢
    cases hrow : (d.seasons.select fun row => row.key = (id, n)).1.head? with
    | some row => rfl
    | none =>
      rw [hrow] at hterm
      have hpend : RequestStatus.pending ∈ terminalSeasonStatuses := hterm
      exact absurd hpend (by decide)
  unfold setStatus at h
  dsimp only at h
  split at h
  · rename_i hskip
    cases h
    rw [Bool.and_eq_true, decide_eq_true_eq] at hskip
    exact hmove.effect (congrArg (statuses · id) (hgot hskip.2))
  · exact (hmove.sums (setRowStatus_sums h)).effect

theorem moves_ensureSeason (d : Desk) (id : Nat) (present evicted : List Int) (force : Bool)
    (n : Int) : Moves d (ensureSeason now id present evicted force d n) id := by
  unfold ensureSeason
  dsimp only
  generalize (if n ∈ present then RequestStatus.available else .pending) = initial
  have hmove := moves_ensure d id n initial (Decidable.decide (n ∈ evicted))
  split
  · exact hmove.trans (moves_setRowStatusIfIn ..)
  split
  · exact hmove.trans (moves_setRowStatusIfIn ..)
  · split
    · exact hmove.trans (moves_setRowStatusIfIn ..)
    · exact hmove

theorem moves_foldl {f : Desk → Int → Desk} (hf : ∀ d n, Moves d (f d n) id) (seasons : List Int)
    (d : Desk) : Moves d (seasons.foldl f d) id := by
  induction seasons generalizing d with
  | nil => exact Moves.refl d id
  | cons n seasons ih => exact (hf d n).trans (ih (f d n))

theorem ensureSeasons_sums {force : Bool}
    (h : ensureSeasons now titles d id seasons present evicted force = some d') : Sums d d' id :=
  (moves_foldl (fun d n => moves_ensureSeason d id present evicted force n) seasons d).sums
    (recomputeParent_sums h)

theorem createRequest_effect {request : MediaRequest} {force : Bool}
    (h : createRequest now titles d request seasons present evicted force = some d') :
    Effect d d' request.id := by
  unfold createRequest at h
  split at h
  · exact nomatch h
  rename_i hfree
  have hnone : d.requests.table.find request.id = none := by simpa using hfree
  dsimp only at h
  split at h
  · exact nomatch h
  have hsums := ensureSeasons_sums h
  have hcur : ∀ k, Current d k →
      Current { d with requests := d.requests.insert request } k := fun k hk =>
    ⟨hk.request.insert hnone, hk.season⟩
  refine ⟨fun k hk => hsums.current k (hcur k hk), fun k hk hfold => ?_,
    fun hid _ => hsums.folded (hcur _ hid)⟩
  refine hsums.others k hk (folded_congr hfold ?_ rfl rfl)
  have hne : ¬ request.id = k := fun heq => hk heq.symm
  simp [View.insert, Table.find_insert, hne]

theorem cancelSeasons_effect (h : cancelSeasons now titles d id = some d') : Effect d d' id := by
  unfold cancelSeasons at h
  have hall : ∀ (rows : List SeasonRequest) (e : Desk),
      rows.foldlM (fun d row => setStatus now titles d id row.seasonNumber .cancelled false) e =
        some d' → Effect e d' id := by
    intro rows
    induction rows with
    | nil =>
      intro e he
      obtain rfl := Option.some.inj he
      exact (Moves.refl e id).effect rfl
    | cons row rows ih =>
      intro e he
      rw [List.foldlM_cons, Option.bind_eq_bind, Option.bind_eq_some_iff] at he
      rcases he with ⟨e', he', hrest⟩
      exact (setStatus_effect he').trans (ih e' hrest)
  have heff := hall _ _ h
  exact
    { current := fun k hk => heff.current k
        ⟨hk.request.refresh id, fun n => (hk.season n).select _⟩
      others := fun k hk hfold => heff.others k hk hfold
      folded := fun hk hfold => heff.folded
        ⟨hk.request.refresh id, fun n => (hk.season n).select _⟩ hfold }

-- A season that is tracked is moved, or nothing is.
theorem ensure_recomputeIf_effect (htrack : (d.seasons.table.find (id, n)).isSome = true)
    (hst : ∀ row row' : SeasonRequest, row.status = row'.status →
      (f row).status = (f row').status)
    (h : recomputeIf titles (updateSeason (ensure d id n .pending false).2 id n p f hf) id
      tolerate = some d') : Effect d d' id :=
  (moves_ensure d id n .pending false).trans_effect
    (congrArg (statuses · id) (table_ensure htrack)) (recomputeIf_effect hst h)

-- Every service leaves the show it is called for folded, if the session is current, and the
-- other shows as they were.
theorem perform_effect {call : Call} (htrack : call.tracked d = true)
    (h : perform now titles d call = some d') : Effect d d' call.request := by
  cases call with
  | createRequest request seasons present evicted force => exact createRequest_effect h
  | ensureSeasons id seasons present evicted force => exact (ensureSeasons_sums h).effect
  | setStatus id n status skip => exact setStatus_effect h
  | setStatusIfIn id n status allowedFrom conditions tolerate =>
    exact recomputeIf_effect (status_moved_congr status) h
  | markCompleted id n | resetForResearch id n =>
    exact ((moves_ensure d id n .pending false).sums (setRowStatus_sums h)).effect
  | markCompletedIfIn id n allowedFrom conditions =>
    exact ensure_recomputeIf_effect htrack (status_moved_congr .completed) h
  | markAvailable id n generation =>
    exact ensure_recomputeIf_effect htrack status_promoted_congr h
  | markNoAcceptableRelease id n conditions =>
    exact ensure_recomputeIf_effect htrack (status_moved_congr .noAcceptableRelease) h
  | cancelSeasons id => exact cancelSeasons_effect h

/-! ### Sessions -/

/-- A request that a session does not hold a stale row of, nor of its seasons. -/
def World.Current (w : World) (session : Nat) (id : Nat) : Prop :=
  Rollup.Current (w.desk session) id

/-- A session that moves a season holds no row of the show, or of its seasons, with
    a status that is not the committed one. -/
def Careful (w : World) : Action → Prop
  | .transact session _ calls => ∀ call ∈ calls, w.Current session call.request
  | _ => True

def ShowsFolded (w : World) : Prop := ∀ id, Folded w.requests w.seasons w.kept id

theorem transact_folded {calls : List Call} (htrack : tracked now titles d calls = true)
    (hcur : ∀ call ∈ calls, Current d call.request) (hfold : ∀ k, d.Folded k)
    (h : transact now titles d calls = some d') (k : Nat) : d'.Folded k := by
  induction calls generalizing d with
  | nil =>
    cases h
    exact hfold k
  | cons call calls ih =>
    rw [transact, List.foldlM_cons, Option.bind_eq_bind, Option.bind_eq_some_iff] at h
    rcases h with ⟨e, he, hrest⟩
    simp only [tracked, he, Option.all_some, Bool.and_eq_true] at htrack
    have heff := perform_effect htrack.1 he
    -- What the session holds of the shows of the later calls is still current.
    refine ih htrack.2 (fun c hc => heff.current _ ?_) (fun k => ?_) hrest
    · exact hcur c (List.mem_cons_of_mem call hc)
    · by_cases hk : k = call.request
      · rw [hk]
        exact heff.folded (hcur call List.mem_cons_self) (hfold _)
      · exact heff.others k hk (hfold k)

theorem table_foldl_hold {κ ρ : Type} [DecidableEq κ] {key : ρ → κ} (ks : List κ)
    (v : View key) : (ks.foldl View.hold v).table = v.table := by
  induction ks generalizing v with
  | nil => rfl
  | cons k ks ih => exact ih (v.hold k)

theorem table_foldl_forget {κ ρ : Type} [DecidableEq κ] {key : ρ → κ} (ks : List κ)
    (v : View key) : (ks.foldl View.forget v).table = v.table := by
  induction ks generalizing v with
  | nil => rfl
  | cons k ks ih => exact ih (v.forget k)

variable {w w' : World}

theorem step_folded {a : Action} (hfold : ShowsFolded w) (hcare : Careful w a)
    (hstep : step titles w a = some w') : ShowsFolded w' := by
  cases a with
  | read session requests seasons =>
    cases hstep
    intro id
    simp only [World.commit, World.desk, table_foldl_hold]
    exact hfold id
  | forget session requests seasons =>
    cases hstep
    intro id
    simp only [World.commit, World.desk, table_foldl_forget]
    exact hfold id
  | transact session now calls =>
    simp only [step] at hstep
    split at hstep
    · rename_i htrack
      cases hstep
      intro id
      cases htransact : Rollup.transact now titles (w.desk session) calls with
      | none => exact hfold id
      | some d => exact transact_folded htrack hcare (fun k => hfold k) htransact id
    · exact nomatch hstep

/-- In every run in which no session moves a season while it holds an old row of the
    show, the status of every show is the fold of its seasons in every committed
    state. -/
theorem shows_folded (titles : Grab.Titles) (w w' : World) (as : List Action)
    (hfolded : ShowsFolded w) (hcareful : StepsMeet (step titles) Careful w as)
    (hrun : run (step titles) w as = some w') : ShowsFolded w' :=
  invariant_of_meeting_run (fun _ _ _ hs hc hstep => step_folded hs hc hstep) w w' as hfolded
    hcareful hrun

def oneShow : Grab.Titles where
  mediaType _ := .tv
  tmdbId := Int.ofNat

def nothing : World where
  requests := .empty
  seasons := .empty
  kept _ := false
  heldRequests _ _ := none
  heldSeasons _ _ := none

theorem nothing_folded : ShowsFolded nothing := fun _ _ hr => nomatch hr

/-- A show is requested. One session reads its second season, another one starts to
    download that, and the first session finishes an import of the first season. -/
def staleSeason : List Action :=
  [.transact 0 0 [.createRequest { id := 1, status := .pending } [1, 2] [] [] false],
    .read 1 [1] [(1, 2)],
    .transact 2 1 [.setStatus 1 2 .downloading false],
    .transact 1 2 [.markCompleted 1 1]]

theorem isSome_staleSeason : (run (step oneShow) nothing staleSeason).isSome = true := by decide

def afterStaleSeason : World := (run (step oneShow) nothing staleSeason).get isSome_staleSeason

/-- The show reads completed while its second season is downloading. -/
theorem show_not_folded :
    ¬ ∀ (titles : Grab.Titles) (w w' : World) (as : List Action), ShowsFolded w →
      run (step titles) w as = some w' → ShowsFolded w' := by
  intro h
  have hfold := h oneShow nothing afterStaleSeason staleSeason nothing_folded
    (Option.some_get _).symm 1
  have hshow : afterStaleSeason.requests.find 1 = some { id := 1, status := .completed } := by
    decide
  have hrollup := hfold _ hshow (by decide) (by decide)
  revert hrollup
  decide

def oneSession : List Action :=
  [.transact 0 0 [.createRequest { id := 1, status := .pending } [1, 2] [] [] false,
    .setStatus 1 2 .downloading false, .markCompleted 1 1]]

theorem isSome_oneSession : (run (step oneShow) nothing oneSession).isSome = true := by decide

/-- A session that holds nothing is careful. -/
theorem oneSession_folded :
    ShowsFolded ((run (step oneShow) nothing oneSession).get isSome_oneSession) := by
  refine shows_folded oneShow nothing _ oneSession nothing_folded ⟨?_, ?_⟩ (Option.some_get _).symm
  · intro call _
    exact ⟨View.Agrees.of_not_held rfl, fun n => View.Agrees.of_not_held rfl⟩
  · split
    · trivial
    · trivial

end Rollup

end PlexManager
