import PlexManager.Theory.Eviction.Protection
import PlexManager.Theory.Eviction.Registries
import PlexManager.Theory.Eviction.Writes

/-!
# What a recovery looks at before it deletes

A recovery that finishes a delete has read its row long before. So it looks at
everything once more with the permit held, in one transaction: the first write
of it takes the lock of the database, and the reads after it see what was
committed before. Nothing is awaited between its commit and the start of the
thread.

One of the reads takes only the first download that fetches the season. A second
one cannot hide behind it: a movie has one unfinished download at most, and two
that fetch a season to import it have claims for it, which are read as well.

A row of a movie that was not evicted when the recovery read it has not been
evicted since, for only a sweep evicts, and it evicts after it has recovered.

## Theorems

* `recovery_deletes_its_own`: A thread starts only then, and a recovery that is
  turned away has changed nothing.
* `registries_exact`: The registries count what the callers hold.
-/

namespace PlexManager

namespace Eviction

open KeyedTable Interleaving Transition

/-! ### The transaction -/

/-- What a recovery has to find before it deletes. `path` is still that of the
    row and under its marker, nobody else has it or fetches into it, and the
    title is not wanted, unless the row is a movie that was not evicted. -/
structure Deletable (db : Db) (key : RowKey) (path : Path) : Prop where
  marked : ∃ r, db.row key = some r ∧ r.libraryPath = some path ∧
    r.partialDeletePath = some path
  untransferred : ∀ d ∈ db.downloads.rows, d.owns key.requestId key.seasonNumber = true →
    d.status ∉ transferActiveDownloadStates
  uncovered : db.coverageClaimActive key = false
  untwinned : ∀ r ∈ db.rows.rows, r.key ≠ key → r.claims path = false
  unwanted : (db.pinned key = false ∧ db.watchlisted key = false) ∨
    key.mediaType = .movie ∧ ∀ r, db.row key = some r → r.status ≠ .evicted

variable {db db' rows : Db} {k key : RowKey} {s s' : Shared} {r : Snapshot} {pc pc' : RecoverPc}
  {d : Download} {path : Path} {status : RequestStatus} {rest : List Snapshot} {args : SweepArgs}
  {w : World} {f : Row → Row}

theorem owns_cases {id : Nat} {season : Option Int} (h : d.owns id season = true) :
    d.active = true ∧ ((d.mediaRequestId = some id ∧ d.season = season) ∨
      ∃ s ∈ d.scopes, s.mediaRequestId = id ∧ s.season = season ∧ s.unresolved = true) := by
  simp only [Download.owns, Bool.and_eq_true, Bool.or_eq_true, decide_eq_true_eq, List.any_eq_true,
    Scope.names] at h
  refine ⟨h.1, ?_⟩
  rcases h.2 with ⟨hcols, -⟩ | ⟨s, hs, hname, hunres⟩
  · exact .inl hcols
  · exact .inr ⟨s, hs, hname.1, hname.2, hunres⟩

theorem covered_of_scope {id : Nat} {n : Int} {s : Scope} (hd : d ∈ db.downloads.rows)
    (hact : d.active = true) (hs : s ∈ d.scopes) (hid : s.mediaRequestId = id)
    (hseas : s.season = some n) (hunres : s.unresolved = true) :
    db.coverageClaimActive (.season id n) = true := by
  rcases db.downloads.claimed d hd hact s hs hunres n hseas with
    ⟨c, hc, hreq, hn, hcactive⟩
  refine List.any_eq_true.mpr ⟨d, hd, ?_⟩
  simp only [Db.covers, hact, Bool.true_and, List.any_eq_true, Bool.and_eq_true,
    decide_eq_true_eq]
  exact ⟨c, hc, ⟨hcactive, by rw [hreq, hid]⟩, hn⟩

-- Where a season is not covered, a download owns it by its own columns, and a movie is owned
-- by nothing else.
theorem columns_of_owns (hd : d ∈ db.downloads.rows) (huncov : db.coverageClaimActive key = false)
    (howns : d.owns key.requestId key.seasonNumber = true) :
    d.active = true ∧ d.mediaRequestId = some key.requestId ∧ d.season = key.seasonNumber := by
  rcases owns_cases howns with ⟨hact, ⟨hreq, hseas⟩ | ⟨s, hs, hid, hseas, hunres⟩⟩
  · exact ⟨hact, hreq, hseas⟩
  cases key with
  | movie id =>
    have hsome := db.downloads.seasonal d hd s hs
    rw [hseas] at hsome
    simp [RowKey.seasonNumber] at hsome
  | season id n =>
    have hcov : db.coverageClaimActive (.season id n) = true :=
      covered_of_scope hd hact hs hid hseas hunres
    rw [huncov] at hcov
    simp at hcov

theorem untransferred_of_first (huncov : db.coverageClaimActive key = false)
    (hfst : db.competingActiveTransfer key = false) :
    ∀ d ∈ db.downloads.rows, d.owns key.requestId key.seasonNumber = true →
      d.status ∉ transferActiveDownloadStates := by
  intro d hd howns
  unfold Db.competingActiveTransfer Db.findActiveForRequest at hfst
  cases hfind : db.downloads.rows.find? (·.owns key.requestId key.seasonNumber) with
  | none => exact absurd howns (List.find?_eq_none.mp hfind d hd)
  | some e =>
    rw [hfind] at hfst
    have he := List.mem_of_find?_eq_some hfind
    have heowns : e.owns key.requestId key.seasonNumber = true := List.find?_some hfind
    rcases columns_of_owns hd huncov howns with ⟨hact, hreq, hseas⟩
    rcases columns_of_owns he huncov heowns with ⟨heactive, herequest, heseason⟩
    have hsame : d = e := by
      refine Decidable.byContradiction fun hne => ?_
      rcases List.getElem?_of_mem hd with ⟨i, hi⟩
      rcases List.getElem?_of_mem he with ⟨j, hj⟩
      have hij : i ≠ j := fun hij => hne (Option.some.inj (hi.symm.trans (hij ▸ hj)))
      have hslot := pairwise_of_ne ?_ db.downloads.slots hi hj hij
      swap
      · intro d e hslot he hd hsome heq hseas
        exact hslot hd he (heq ▸ hsome) heq.symm hseas.symm
      exact hslot hact heactive (hreq ▸ rfl) (hreq.trans herequest.symm) (hseas.trans heseason.symm)
    subst hsame
    simpa using hfst

theorem deletable_of_boundary {correction : Bool}
    (h : db.recoveryDeleteBoundary key path correction = true)
    (hcorr : correction = true → key.mediaType = .movie ∧
      ∀ r, db.row key = some r → r.libraryPath = some path → r.status ≠ .evicted) :
    Deletable db key path := by
  simp only [Db.recoveryDeleteBoundary, Bool.and_eq_true, Bool.or_eq_true, Bool.not_eq_true']
    at h
  rcases h with ⟨⟨⟨⟨⟨hmark, htransfer⟩, huncov⟩, htwin⟩, htwin'⟩, hwant⟩
  simp only [Db.confirmPartialDeleteMarker, Bool.and_eq_true, Option.any_eq_true,
    decide_eq_true_eq] at hmark
  rcases hmark with ⟨⟨r, hr, hpath, hmarker⟩, -⟩
  refine ⟨⟨r, hr, hpath, hmarker⟩, untransferred_of_first huncov htransfer, huncov, ?_, ?_⟩
  · intro x hx hne
    rcases key.mediaType.eq_or_other x.key.mediaType with hmedia | hmedia
    · exact claimsPath_eq_false.mp htwin x hx hmedia hne
    · exact claimsPath_eq_false.mp htwin' x hx hmedia hne
  · rcases hwant with hcor | ⟨hlist, hpin⟩
    · refine .inr ⟨(hcorr hcor).1, fun r' hr' => ?_⟩
      obtain rfl : r = r' := Option.some.inj (hr.symm.trans hr')
      exact (hcorr hcor).2 r hr hpath
    · exact .inl ⟨hpin, hlist⟩

/-! ### Rows that were not evicted -/

/-- A row that is evicted has no path left. -/
def Db.Unclaimed (db : Db) (key : RowKey) : Prop :=
  ∀ r, db.row key = some r → r.status = .evicted → r.libraryPath = none

/-- A rewritten row that is evicted has no path, or was evicted with that path
    before. -/
def Unclaiming (f : Row → Row) : Prop :=
  ∀ r, (f r).status = .evicted →
    (f r).libraryPath = none ∨ r.status = .evicted ∧ (f r).libraryPath = r.libraryPath

theorem Db.Unclaimed.map (h : db.Unclaimed key) (hrow : db'.row key = (db.row key).map f)
    (hf : Unclaiming f) : db'.Unclaimed key := by
  intro r hr hevict
  rw [hrow] at hr
  rcases Option.map_eq_some_iff.mp hr with ⟨r₀, hr₀, rfl⟩
  rcases hf r₀ hevict with hnone | ⟨hevict₀, hpath⟩
  · exact hnone
  · exact hpath.trans (h r₀ hr₀ hevict₀)

theorem Unclaiming.ite (h : Unclaiming f) (p : Prop) [Decidable p] :
    Unclaiming fun r => if p then f r else r := by
  intro r hevict
  by_cases hp : p
  · simp only [if_pos hp] at hevict ⊢
    exact h r hevict
  · simp only [if_neg hp] at hevict ⊢
    exact .inr ⟨hevict, trivial⟩

theorem unclaiming_movedFrom {allowedFrom : List RequestStatus}
    (h : status ≠ .evicted) : Unclaiming (Row.movedFrom allowedFrom status) := by
  intro r hevict
  unfold Row.movedFrom at hevict ⊢
  split at hevict
  · exact absurd hevict h
  rename_i hout
  exact .inr ⟨hevict, by rw [if_neg hout]⟩

theorem unclaiming_cleared (path : Path) (statuses : List RequestStatus) :
    Unclaiming (Row.cleared path statuses) := by
  intro r hevict
  unfold Row.cleared at hevict ⊢
  split
  · exact .inl rfl
  · rename_i hout
    rw [if_neg hout] at hevict
    exact .inr ⟨hevict, rfl⟩

theorem unclaiming_restored : Unclaiming Row.restored := by
  intro r hevict
  exact absurd hevict (restoredStatus_ne_evicted r.key r.status)

theorem Db.Unclaimed.restore (h : db.Unclaimed k) (key : RowKey) :
    (db.restoreAfterFailedDelete key).Unclaimed k := by
  by_cases hk : k = key
  · subst hk
    exact h.map (row_restore_self db k) unclaiming_restored
  intro r hr hevict
  rcases row_restore_other db hk with hsame | ⟨r₀, -, -, hcan⟩
  · exact h r (hsame ▸ hr) hevict
  · rw [hcan] at hr
    cases hr
    simp at hevict

theorem Db.Unclaimed.transact (h : s.db.Unclaimed k) (h' : db.Unclaimed k)
    (t : Turn) : (s.transact t db).db.Unclaimed k := by
  unfold Shared.transact
  split
  · exact h'
  · exact h

theorem Db.Unclaimed.clear (h : db.Unclaimed k) (key : RowKey) (path : Path)
    (statuses : List RequestStatus) : (db.clearLibraryPathIfSet key path statuses).2.Unclaimed k :=
  h.map (row_clearLibraryPathIfSet db key path statuses k)
    ((unclaiming_cleared path statuses).ite _)

theorem Db.Unclaimed.setStatusIfIn (h : db.Unclaimed k) (key : RowKey) (hst : status ≠ .evicted)
    (allowedFrom : List RequestStatus) : (db.setStatusIfIn key status allowedFrom).2.Unclaimed k :=
  h.map (row_setStatusIfIn db key status allowedFrom k) ((unclaiming_movedFrom hst).ite _)

theorem Db.Unclaimed.finalizeResumed (h : db.Unclaimed k)
    (hdb : db.finalizeResumed key path = some db') : db'.Unclaimed k :=
  h.map ((row_finalizeResumed hdb).2.2 k) (Unclaiming.ite (fun _ _ => .inl rfl) _)

theorem RecoverEffect.unclaimed (heff : RecoverEffect s r pc s' pc')
    (h : s.db.Unclaimed k) : s'.db.Unclaimed k := by
  cases heff with
  | purged pc s' st hpurge =>
    rw [RecoverPc.ofPurge_eq, hpurge.frame]
    exact h
  | breadcrumbReleased t fate => exact h.transact (h.clear r.key r.libraryPath _) t
  | restored t fate => exact h.transact (h.restore r.key) t
  | folded t fate => exact h.transact (h.setStatusIfIn r.key (by decide) [r.status]) t
  | finalized held db hdb => exact h.finalizeResumed hdb
  | finalizeLost held t db fate hdb =>
    rw [Shared.unregisterHeld_eq]
    exact h.transact (h.finalizeResumed hdb) t
  | unconfirmed | unstarted | released =>
    rw [Shared.unregisterHeld_eq]
    exact h
  | _ => exact h

theorem Db.Unclaimed.reportIssue (h : db.Unclaimed k) (key : RowKey)
    (path : Option Path) : (db.reportIssue key path).Unclaimed k := by
  refine h.map (row_modify db key _ _ k) (Unclaiming.ite (fun r hevict => ?_) _)
  simp at hevict

theorem Db.Unclaimed.settleReport (h : db.Unclaimed k) (key : RowKey)
    (o : PurgeOutcome) : (db.settleReport key o).Unclaimed k := by
  cases o with
  | partialDelete => exact h
  | deleted =>
    exact h.map (row_modify db key _ _ k) (Unclaiming.ite (fun _ _ => .inl rfl) _)
  | _ =>
    refine h.map (row_modify db key _ _ k) (Unclaiming.ite (fun r hevict => ?_) _)
    exact .inr ⟨hevict, rfl⟩

theorem CorrectEffect.unclaimed {pc pc' : CorrectPc} (heff : CorrectEffect s key pc s' pc')
    (h : s.db.Unclaimed k) : s'.db.Unclaimed k := by
  cases heff with
  | rearmed path => exact h.reportIssue key path
  | rearmLost path t =>
    have haft := h.transact (h.reportIssue key path) t
    cases path <;> exact haft
  | purged path pc s' st hpurge =>
    rw [CorrectPc.ofPurge_eq, hpurge.frame]
    exact h
  | settled path o => exact h.settleReport key o
  | settleLost path o t => exact h.transact (h.settleReport key o) t
  | orphaned path s' alive horph =>
    rw [congrArg Shared.db horph.frame]
    exact h
  | _ => exact h

theorem ImportEffect.unclaimed {pc pc' : ImportPc} (heff : ImportEffect s key path pc s' pc')
    (h : s.db.Unclaimed k) : s'.db.Unclaimed k := by
  have hstm : (s.db.stamp key path).Unclaimed k := by
    refine h.map (row_modify s.db key _ _ k) (Unclaiming.ite (fun r hevict => ?_) _)
    simp at hevict
  cases heff with
  | stamped | stampLost => exact hstm
  | _ => exact h

theorem unclaiming_onRow (k : RowKey) (v : Verb) : Unclaiming fun r => v.onRow k r := by
  cases v with
  | rearm key => exact Unclaiming.ite (unclaiming_movedFrom (by decide)) _
  | fallback key | confirm key => exact Unclaiming.ite (unclaiming_movedFrom (by decide)) _
  | move key status =>
    intro r hevict
    simp only [Verb.onRow] at hevict ⊢
    split at hevict
    · rename_i hmov
      have hst : status = .evicted := hevict
      exact absurd (by simp [hst]) hmov.2
    · rename_i hsame
      rw [if_neg hsame]
      exact .inr ⟨hevict, rfl⟩
  | _ => exact fun r hevict => .inr ⟨hevict, rfl⟩

theorem Db.Unclaimed.apply (h : db.Unclaimed k) (v : Verb) : (v.apply db).Unclaimed k := by
  rcases row_apply db v k with hrow | ⟨-, r, hr, hpath, -⟩
  · exact h.map hrow (unclaiming_onRow k v)
  · intro r' hr' _
    obtain rfl := Option.some.inj (hr.symm.trans hr')
    exact hpath

/-! ### The rows that a sweep has read -/

variable {a : SweepArgs}

theorem SweepMove.read {pc pc' : SweepPc} {run : SweepRun}
    (h : SweepMove s a pc run s' pc') (hr : r ∈ pc'.snapshots) :
    r ∈ pc.snapshots ∨ s' = s ∧ ∃ status, r ∈ a.snapshots s.db status := by
  cases h with
  | goes _ _ _ hread _ => exact (hread r hr).imp_right fun hnew => ⟨rfl, hnew⟩
  | stops | stopsDown => simp [SweepPc.snapshots] at hr
  | records _ _ _ hread _ => simp [hread] at hr

theorem sweepNext_snapshots (c : Choice) (s : Shared) (a : SweepArgs) (pc : SweepPc)
    (h : r ∈ (sweepNext c s a pc).2.snapshots) :
    r ∈ pc.snapshots ∨
      (sweepNext c s a pc).1 = s ∧ ∃ status, r ∈ a.snapshots s.db status := by
  have hnone : ∀ {pc' : SweepPc} {p : Prop}, r ∈ pc'.snapshots → pc'.snapshots = [] → p :=
    fun hr hnil => absurd (hnil ▸ hr) nofun
  have hmove := fun run => @sweepNext_move c s a pc run
  cases pc with
  | start =>
    simp only [sweepNext] at h
    split at h
    · exact hnone h rfl
    · split at h
      · exact hnone h rfl
      · exact hnone h rfl
  | recovering run r' pc rest =>
    simp only [sweepNext, SweepPc.afterRecovery] at h
    split at h
    · exact hnone h rfl
    · exact .inl (List.mem_cons_of_mem r' h)
    · exact hnone h rfl
    · exact .inl h
  | evicting run key path pc rest pool =>
    simp only [sweepNext, SweepPc.afterEviction] at h
    split at h
    · exact hnone h rfl
    · exact hnone h (SweepPc.snapshots_resume run rest pool)
    · exact hnone h rfl
    · exact hnone h rfl
  | orphan key path =>
    simp only [sweepNext] at h
    split at h
    · exact hnone h rfl
    · exact hnone h rfl
    · exact hnone h rfl
    · exact hnone h rfl
  | ended => exact hnone h rfl
  | _ => exact (hmove _ rfl rfl).read h

theorem unclaimed_of_snapshots (h : r ∈ a.snapshots db status)
    (hcorr : r.correction = true) : db.Unclaimed r.key := by
  simp only [SweepArgs.snapshots, List.mem_filterMap] at h
  rcases h with ⟨row, hrow, hsome⟩
  split at hsome
  · simp at hsome
  split at hsome
  · rename_i hgot
    cases hsome
    have hfind : db.row row.key = some row := Table.find_eq_some.mpr ⟨hrow, rfl⟩
    have hst : status ≠ .evicted := by
      simp only [Snapshot.correction, decide_eq_true_eq] at hcorr
      exact hcorr.2
    intro x hx hevict
    obtain rfl : row = x := Option.some.inj (hfind.symm.trans hx)
    exact absurd (hgot.2.1.symm.trans hevict) hst
  · simp at hsome

/-! ### Runs -/

/-- What is asserted of a caller. The movies that a sweep has read as not
    evicted are not, and what it has confirmed may be deleted. -/
structure Confirmed (db : Db) (pc : SweepPc) : Prop where
  unclaimed : ∀ r ∈ pc.snapshots, r.correction = true → db.Unclaimed r.key
  deletable : ∀ run r rows rest, pc = .recovering run r (.confirmed rows) rest →
    Deletable rows r.key r.libraryPath

def Caller.Confirmed (db : Db) : Caller → Prop
  | .sweep _ pc => Eviction.Confirmed db pc
  | _ => True

-- Whoever evicts is a sweep that holds the latch. Nobody else gives a row that is evicted its
-- path.
theorem Caller.unclaimed_next (c : Choice) (a : Caller) (hevict : ∀ args run key path pc rest pool,
      a ≠ .sweep args (.evicting run key path pc rest pool))
    (h : s.db.Unclaimed k) : (a.next c s).1.db.Unclaimed k := by
  cases a with
  | correction key pc => exact (correctNext_effect c.turn s key pc).unclaimed h
  | importer key path pc => exact (importNext_effect c.turn s key path pc).unclaimed h
  | sweep args pc =>
    have heff := sweepNext_effect c s args pc
    simp only [Caller.next]
    generalize (sweepNext c s args pc).1 = s', (sweepNext c s args pc).2 = pc' at heff ⊢
    cases heff with
    | outside _ _ _ hs =>
      rw [hs.db]
      exact h
    | recovering run r rest pc s'' pc'' hcall =>
      rw [(SweepPc.afterRecovery_cases s'' run r rest pc'').1.db]
      exact hcall.unclaimed h
    | evicting run key path rest pool pc s'' pc'' => exact absurd rfl (hevict _ _ _ _ _ _ _)
    | orphaned key path _ alive horph =>
      rw [congrArg Shared.db horph.frame]
      exact h

theorem rows_of_confirmed (h : RecoverEffect s r pc s' (.confirmed rows)) :
    pc = .confirmed rows ∨ pc = .boundary ∧ rows = s.db ∧ s' = s ∧
      s.db.recoveryDeleteBoundary r.key r.libraryPath r.correction = true := by
  revert h
  generalize hnext : RecoverPc.confirmed rows = pc'
  intro h
  cases h with
  | confirmed hbnd => exact .inr ⟨rfl, RecoverPc.confirmed.inj hnext, rfl, hbnd⟩
  | stood rows' =>
    exact .inl rfl
  | began =>
      split at hnext
      · simp at hnext
      simp at hnext
  | allowed =>
    split at hnext
    · simp at hnext
    simp at hnext
  | noTwins m =>
    unfold RecoverPc.adjudicate at hnext
    split at hnext
    · simp at hnext
    split at hnext
    · simp at hnext
    simp at hnext
  | purged pc s' st =>
    cases st with
    | outcome o => cases o <;> simp [RecoverPc.ofPurge, RecoverPc.exit] at hnext
    | _ => simp [RecoverPc.ofPurge, RecoverPc.exit] at hnext
  | _ => simp at hnext

theorem Confirmed.recovered {run : SweepRun} (h : Confirmed s.db (.recovering run r pc rest))
    (hcall : RecoverEffect s r pc s' (.confirmed rows)) : Deletable rows r.key r.libraryPath := by
  rcases rows_of_confirmed hcall with rfl | ⟨rfl, rfl, -, hbnd⟩
  · exact h.deletable run r rows rest rfl
  refine deletable_of_boundary hbnd fun hcorr => ⟨?_, ?_⟩
  · simp only [Snapshot.correction, decide_eq_true_eq] at hcorr
    exact hcorr.1
  · intro x hx hpath hevict
    have hnone := h.unclaimed r List.mem_cons_self hcorr x hx hevict
    exact absurd (hpath.symm.trans hnone) nofun

theorem Confirmed.next (c : Choice) {pc : SweepPc}
    (h : Confirmed s.db pc) : Confirmed (sweepNext c s a pc).1.db (sweepNext c s a pc).2 := by
  refine ⟨fun r hr hcorr => ?_, fun run r rows rest hnext => ?_⟩
  · rcases sweepNext_snapshots c s a pc hr with hold | ⟨hsame, status, hread⟩
    · refine Caller.unclaimed_next c (.sweep a pc) ?_ (h.unclaimed r hold hcorr)
      rintro args run key path pc' rest pool heq
      obtain rfl := (Caller.sweep.inj heq).2
      simp [SweepPc.snapshots] at hold
    · rw [hsame]
      exact unclaimed_of_snapshots hread hcorr
  · have heff := sweepNext_effect c s a pc
    rw [hnext] at heff
    rcases heff.recovering_inv with hbegin | ⟨pc₀, rfl, hcall⟩
    · simp at hbegin
    · exact h.recovered hcall

theorem Confirmed.of_unclaimed {pc : SweepPc} (h : Confirmed db pc)
    (hkept : ∀ k, db.Unclaimed k → db'.Unclaimed k) : Confirmed db' pc :=
  ⟨fun r hr hcorr => hkept r.key (h.unclaimed r hr hcorr), h.deletable⟩

theorem confirmed_of_idle {pc : SweepPc} (db : Db)
    (hidle : Caller.sweepWeight (.sweep args pc) = 0) : Confirmed db pc := by
  cases pc with
  | start => exact ⟨fun r hr => absurd hr nofun, fun _ _ _ _ => by simp⟩
  | orphan => exact ⟨fun r hr => absurd hr nofun, fun _ _ _ _ => by simp⟩
  | ended => exact ⟨fun r hr => absurd hr nofun, fun _ _ _ _ => by simp⟩
  | _ => simp [Caller.sweepWeight, Caller.sweeping] at hidle

def confirmedOutline : Outline Shared Caller where
  Shared := fun _ => True
  Local := fun s a => a.Confirmed s.db
  Apart := fun _ _ => True
  weight := fun _ => 0
  held := fun _ => 0

theorem confirmedOutline_sound :
    confirmedOutline.SoundBeside Caller.next (fun _ _ _ => True)
      (fun a b => a.sweepWeight + b.sweepWeight ≤ 1) where
  symm := fun _ _ _ => trivial
  own := by
    intro s a c _ ha _ _
    refine ⟨trivial, ?_⟩
    cases a with
    | sweep args pc => exact Confirmed.next c ha
    | correction key pc | importer key path pc => trivial
  frame := by
    intro s a b c _ _ hb _ hby _ _
    cases b with
    | correction key pc | importer key path pc => trivial
    | sweep args pc =>
      by_cases hevict : ∃ args run key path pc rest pool,
          a = .sweep args (.evicting run key path pc rest pool)
      · rcases hevict with ⟨args', run, key, path, pc', rest, pool, rfl⟩
        have hone : Caller.sweepWeight (.sweep args' (.evicting run key path pc' rest pool)) = 1 :=
          rfl
        have hidle : Caller.sweepWeight (.sweep args pc) = 0 := by omega
        exact confirmed_of_idle _ hidle
      · refine hb.of_unclaimed fun k hk => Caller.unclaimed_next c a ?_ hk
        intro args run key path pc rest pool heq
        exact hevict ⟨args, run, key, path, pc, rest, pool, heq⟩
  apart := fun _ _ _ _ _ _ _ _ _ _ => trivial
  account := fun _ _ _ _ _ _ => rfl

theorem confirmed_of_run {trees : List Path} {as : List Action}
    (hrun : run step (World.idle db trees) as = some w) : confirmedOutline.Holds w := by
  refine (invariant_of_run (I := fun w => World.Accounted w ∧ confirmedOutline.Holds w)
    (fun w a w' h hstep => ⟨h.1.step hstep, ?_⟩) (World.idle db trees) w as
    ⟨accounted_of_idle db trees, trivial, fun _ ha => absurd ha nofun,
      List.Pairwise.nil, rfl⟩ hrun).2
  have hkept : ∀ {w' : World}, w'.actors = w.actors →
      (∀ k, w.shared.db.Unclaimed k → w'.shared.db.Unclaimed k) → confirmedOutline.Holds w' := by
    intro w' hact hdb
    refine ⟨trivial, fun b hb => ?_, ?_, ?_⟩
    · rw [hact] at hb
      have hloc := h.2.locals b hb
      cases b with
      | sweep args pc => exact hloc.of_unclaimed hdb
      | correction key pc | importer key path pc => trivial
    · rw [hact]
      exact h.2.apart
    · rw [hact]
      exact h.2.account
  have hspn : ∀ b : Caller, b.Confirmed w.shared.db → w' = w.spawn b →
      confirmedOutline.Holds w' := by
    rintro b hb rfl
    exact h.2.spawn (fun _ _ _ => trivial) hb (fun _ _ => trivial) rfl
  cases a with
  | sweep args =>
    have hidle : Caller.sweepWeight (.sweep args .start) = 0 := rfl
    exact hspn (.sweep args .start) (confirmed_of_idle _ hidle) (Option.some.inj hstep).symm
  | report key => exact hspn (.correction key .check) trivial (Option.some.inj hstep).symm
  | importInto key path =>
    exact hspn (.importer key path .entering) trivial (Option.some.inj hstep).symm
  | act i c =>
    exact confirmedOutline_sound.act h.2 (h.1.standsBeside i) (fun _ _ => trivial) hstep
  | other v =>
    cases hstep
    exact hkept rfl fun k hk => hk.apply v
  | vanish path =>
    cases hstep
    exact hkept rfl fun k hk => hk
  | crash =>
    cases hstep
    exact ⟨trivial, fun _ hb => absurd hb nofun, List.Pairwise.nil, rfl⟩

/-! ### Where a thread starts -/

theorem confirmed_of_starts {d c : Bool} (h : RecoverEffect s r pc s' (.purging (.deleting d c)))
    (hidle : ∀ d c, pc ≠ .purging (.deleting d c)) : ∃ rows, pc = .confirmed rows := by
  revert h
  generalize hnext : RecoverPc.purging (.deleting d c) = pc'
  intro h
  cases h with
  | started rows => exact ⟨rows, rfl⟩
  | began | allowed =>
    split at hnext
    · simp at hnext
    simp at hnext
  | noTwins m =>
    unfold RecoverPc.adjudicate at hnext
    split at hnext
    · simp at hnext
    split at hnext
    · simp at hnext
    simp at hnext
  | purged pc s' st hpurge =>
    cases hpurge with
    | removed d c | waited d c => exact absurd rfl (hidle d c)
    | failed d => cases d <;> simp [RecoverPc.ofPurge, RecoverPc.exit] at hnext
    | _ => simp [RecoverPc.ofPurge, RecoverPc.exit] at hnext
  | _ => simp at hnext

/-- A step with which a recovery of a row, up to there at `pc`, starts a thread
    that deletes. -/
structure StartsRedelete (w : World) (i : Nat) (c : Choice) (r : Snapshot) (pc : RecoverPc) :
    Prop where
  idle : ∀ d c, pc ≠ .purging (.deleting d c)
  before : ∃ args run rest, w.actors[i]? = some (.sweep args (.recovering run r pc rest))
  after : ∃ w', step w (.act i c) = some w' ∧ ∃ args run r d c rest,
    w'.actors[i]? = some (.sweep args (.recovering run r (.purging (.deleting d c)) rest))

/-- A step of a run that is the transaction of a recovery, which is over and has
    left the rows as they were. -/
structure CommitsBoundary (w₀ : World) (as : List Action) (i : Nat) (r : Snapshot) (rows : Db) :
    Prop where
  mid : ∃ bs c cs v v', as = bs ++ .act i c :: cs ∧ run step w₀ bs = some v ∧
    step v (.act i c) = some v' ∧ v.shared.db = rows ∧ v'.shared.db = rows ∧
    ∃ args run rest, v.actors[i]? = some (.sweep args (.recovering run r .boundary rest))

theorem committed_since {as : List Action} {w₀ : World} {i : Nat} {run' : SweepRun}
    (hrun : run step w₀ as = some w)
    (hat : w.actors[i]? = some (.sweep args (.recovering run' r (.confirmed rows) rest))) :
    w₀.actors[i]? = some (.sweep args (.recovering run' r (.confirmed rows) rest)) ∨
      CommitsBoundary w₀ as i r rows := by
  induction as generalizing w₀ with
  | nil =>
    cases hrun
    exact .inl hat
  | cons a as ih =>
    rcases (run_cons_eq_some _ _ _ _).mp hrun with ⟨u, hstep, hrest⟩
    rcases ih hrest with hsame | hcom
    · rcases actor_of_step hstep hsame with hat₀ | hbeg | ⟨c, b, rfl, hb, hnext, hsh⟩
      · exact .inl hat₀
      · exact absurd hbeg (fun h => by cases h)
      · cases b with
        | correction key pc | importer key path pc => simp [Caller.next] at hnext
        | sweep args' pc =>
          rcases Caller.sweep.inj hnext with ⟨rfl, hpc⟩
          have heff := sweepNext_effect c w₀.shared args pc
          rw [← hpc] at heff
          rcases heff.recovering_inv with hbegin | ⟨pc₀, rfl, hcall⟩
          · simp at hbegin
          rcases rows_of_confirmed hcall with rfl | ⟨rfl, rfl, hsame, -⟩
          · exact .inl hb
          · refine .inr ⟨[], c, as, w₀, u, rfl, rfl, hstep, rfl, ?_, _, _, _, hb⟩
            rw [hsh]
            exact congrArg Shared.db hsame
    · rcases hcom.mid with ⟨bs, c, cs, v, v', rfl, hbs, hmid⟩
      refine .inr ⟨a :: bs, c, cs, v, v', rfl, ?_, hmid⟩
      exact (run_cons_eq_some _ _ _ _).mpr ⟨u, hstep, hbs⟩

def RecoverPc.writes : RecoverPc → Bool
  | .releaseBreadcrumb | .restore | .fold | .finalize _ => true
  | _ => false

theorem RecoverEffect.db_of_reads (h : RecoverEffect s r pc s' pc')
    (hread : pc.writes = false) : s'.db = s.db := by
  cases h with
  | purged pc s' st hpurge =>
    rw [RecoverPc.ofPurge_eq, hpurge.frame]
  | breadcrumbReleased | restored | folded | unfinalized | finalized | finalizeLost =>
    simp [RecoverPc.writes] at hread
  | unconfirmed | unstarted | released => rw [Shared.unregisterHeld_eq]
  | _ => rfl

-- The transaction confirms what may be deleted, or the recovery is over.
theorem boundary_cases (h : RecoverEffect s r .boundary s' pc') :
    (s.db.recoveryDeleteBoundary r.key r.libraryPath r.correction = true ∧
      pc' = .confirmed s.db) ∨ ∃ fate, pc' = .ended fate := by
  cases h with
  | confirmed hbnd => exact .inl ⟨hbnd, rfl⟩
  | unconfirmed fate => exact .inr ⟨fate, rfl⟩
  | cut pc fate hpc => simp [RecoverPc.reading] at hpc

theorem recover_of_act {w' : World} {i : Nat} {c : Choice} {run : SweepRun}
    (hstep : step w (.act i c) = some w')
    (hat : w.actors[i]? = some (.sweep args (.recovering run r pc rest))) :
    ∃ s' pc', RecoverEffect w.shared r pc s' pc' ∧ w'.shared.db = s'.db ∧
      w'.actors[i]? = some (.sweep args (SweepPc.afterRecovery s' run r rest pc').2) := by
  have hlen := (List.getElem?_eq_some_iff.mp hat).1
  simp only [step, World.act, hat, Option.some.injEq] at hstep
  subst hstep
  refine ⟨_, _, recoverNext_effect c.turn w.shared r pc, ?_, ?_⟩
  · simp only [Caller.next, sweepNext]
    exact (SweepPc.afterRecovery_cases _ run r rest _).1.db
  · exact List.getElem?_set_self hlen

/-- A recovery starts a thread only from the rows that its transaction has
    committed, and for what may be deleted there. A recovery that its transaction
    turns away is over. No step before the thread ends has changed a row. -/
theorem recovery_deletes_its_own {db : Db} {trees : List Path} {as : List Action} {w : World}
    {i : Nat} {c : Choice} {r : Snapshot} (hrun : run step (World.idle db trees) as = some w) :
    (∀ pc, StartsRedelete w i c r pc → ∃ rows, pc = .confirmed rows ∧
      CommitsBoundary (World.idle db trees) as i r rows ∧ Deletable rows r.key r.libraryPath) ∧
    ∀ args run pc rest w', step w (.act i c) = some w' →
      w.actors[i]? = some (.sweep args (.recovering run r pc rest)) → pc.writes = false →
      w'.shared.db = w.shared.db ∧
        (pc = .boundary → ¬ Deletable w.shared.db r.key r.libraryPath → ∃ pc',
          w'.actors[i]? = some (.sweep args pc') ∧ pc'.inside = false) := by
  refine ⟨fun pc hbeg => ?_, fun args run pc rest w' hstep hat hread => ⟨?_, ?_⟩⟩
  · rcases hbeg.before with ⟨args, run, rest, hat⟩
    rcases hbeg.after with ⟨w', hstep, args', run', r', d, c', rest', hat'⟩
    rcases recover_of_act hstep hat with ⟨s', pc', hcall, -, haft⟩
    have hpc := (Caller.sweep.inj (Option.some.inj (haft.symm.trans hat'))).2
    rcases SweepPc.afterRecovery_cases s' run r rest pc' with
      ⟨-, ⟨fate, -, hout⟩ | ⟨removed, -, heq⟩ | heq⟩
    · rw [hpc] at hout
      simp [SweepPc.inside] at hout
    · cases heq.symm.trans hpc
    · rw [heq] at hpc
      rcases SweepPc.recovering.inj hpc with ⟨rfl, rfl, rfl, rfl⟩
      -- A thread starts from `confirmed` alone, to which only the commit leads.
      rcases confirmed_of_starts hcall hbeg.idle with ⟨rows, rfl⟩
      refine ⟨rows, rfl, ?_, ?_⟩
      · rcases committed_since hrun hat with hfst | hcom
        · simp [World.idle] at hfst
        · exact hcom
      · have hloc := (confirmed_of_run hrun).locals _ (List.mem_of_getElem? hat)
        exact hloc.deletable run r rows rest rfl
  · rcases recover_of_act hstep hat with ⟨s', pc', hcall, hdb, -⟩
    exact hdb.trans (hcall.db_of_reads hread)
  · rintro rfl hnot
    rcases recover_of_act hstep hat with ⟨s', pc', hcall, -, haft⟩
    have hloc := (confirmed_of_run hrun).locals _ (List.mem_of_getElem? hat)
    rcases boundary_cases hcall with ⟨-, rfl⟩ | ⟨fate, rfl⟩
    · exact absurd (Confirmed.recovered hloc hcall) hnot
    · refine ⟨_, haft, ?_⟩
      cases fate <;> rfl

/-! ### An eviction that was interrupted -/

/-- A movie whose delete stopped halfway. -/
def guttedMovie : Row :=
  { key := .movie 1
    status := .evicted
    libraryPath := some "/movies/Film (1999)"
    partialDeletePath := some "/movies/Film (1999)" }

def guttedLibrary : Db where
  rows := ⟨[guttedMovie], by decide⟩
  tmdbId := fun id => 10 * id
  keepForever := []
  watchlist := []
  downloads := ⟨[], Downloads.slots_nil, Downloads.seasonal_nil, Downloads.claimed_nil⟩
  history := []

/-- A sweep finds the movie and goes on to where it deletes. -/
def recoversUpToThread : List Action :=
  .sweep movieSweep :: List.replicate 26 (.act 0 {})

def startsConfirmed (w w' : World) : Option Snapshot :=
  match (w.actors[0]? : Option Caller), (w'.actors[0]? : Option Caller) with
  | some (.sweep _ (.recovering _ r (.confirmed _) _)),
    some (.sweep _ (.recovering _ _ (.purging (.deleting _ _)) _)) => some r
  | _, _ => none

/-- The movie is still that of its row when its delete is done again. -/
theorem recovery_deletes_gutted_movie :
    ∃ w r rows, run step (World.idle guttedLibrary ["/movies/Film (1999)"]) recoversUpToThread =
        some w ∧
      StartsRedelete w 0 {} r (.confirmed rows) ∧ Deletable rows r.key r.libraryPath := by
  have hbeg : ((run step (World.idle guttedLibrary ["/movies/Film (1999)"])
      recoversUpToThread).bind fun w => (step w (.act 0 {})).bind (startsConfirmed w)) =
        some ⟨.movie 1, "/movies/Film (1999)", some "/movies/Film (1999)", .evicted⟩ := by
    decide +kernel
  rcases Option.bind_eq_some_iff.mp hbeg with ⟨w, hw, hrest⟩
  rcases Option.bind_eq_some_iff.mp hrest with ⟨w', hw', hr⟩
  unfold startsConfirmed at hr
  split at hr
  · rename_i hat hat'
    have hstarts : StartsRedelete w 0 {} _ (.confirmed _) :=
      ⟨fun _ _ => by simp, ⟨_, _, _, hat⟩, w', hw', _, _, _, _, _, _, hat'⟩
    rcases (recovery_deletes_its_own hw).1 _ hstarts with ⟨rows, hpc, -, hrows⟩
    obtain rfl := RecoverPc.confirmed.inj hpc
    exact ⟨w, _, _, hw, hstarts, hrows⟩
  · simp at hr

/-! ### What the registries count -/

theorem countP_eq_sum {α : Type} (p : α → Bool) (actors : List α) :
    actors.countP p = (actors.map fun a => if p a then 1 else 0).sum := by
  induction actors with
  | nil => rfl
  | cons a actors ih => rw [List.map_cons, List.sum_cons, List.countP_cons, ih, Nat.add_comm]

/-- Whatever is cancelled, raised or abandoned: the registries count what callers hold and
    nothing else, the latch is taken while one sweep is under way, which is the only one, and
    nobody places where a purge has entered. -/
theorem registries_exact {db : Db} {trees : List Path} {as : List Action} {w : World}
    (hrun : run step (World.idle db trees) as = some w) :
    (∀ k, w.shared.purges.count k = (w.actors.map (Caller.purgeWeight k)).sum ∧
      w.shared.placements.count k = w.actors.countP (Caller.placing k)) ∧
    w.actors.countP Caller.sweeping = (if w.shared.busy then 1 else 0) ∧
    ∀ a ∈ w.actors, ∀ b ∈ w.actors, ∀ k, a.entered = some k → b.placing k = false := by
  have h : w.Accounted :=
    invariant_of_run (fun _ _ _ h => h.step) _ w as (accounted_of_idle db trees) hrun
  refine ⟨fun k => ⟨(h.purges k).account.symm, ?_⟩, ?_, fun a ha b hb k => h.not_placing ha hb⟩
  · rw [countP_eq_sum]
    exact (h.placements k).account.symm
  · rw [countP_eq_sum]
    exact h.sweeps.account

theorem registries_exact_recovering :
    ∃ w, run step (World.idle guttedLibrary ["/movies/Film (1999)"]) recoversUpToThread = some w ∧
      w.actors.countP Caller.sweeping = 1 := by
  refine exists_run (P := fun w => w.shared.busy = true) (by decide +kernel) fun w hw hbusy => ?_
  rw [(registries_exact hw).2.1, hbusy]
  rfl

end Eviction

end PlexManager
