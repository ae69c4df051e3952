import PlexManager.Theory.Eviction.Boundary

/-!
# What a delete has eaten into

A delete may stop halfway. What is left must not be published as watchable, and
the marker in the row says so: as long as it is over the path of the row, a part
of the tree may be missing.

The marker is armed in a row before anything of its tree is deleted, and disarmed
by whoever knows that nothing was. Between the two, nobody else may rely on the
row or rewrite it. The code takes the row of an eviction by its status and that
of a correction by its path, and does not look at the marker in either case. A
recovery publishes a row on the marker that it has read long before. And a thread
deletes under a path that another row may have as well, if that is evicted or
cancelled.

In every run in which these are heeded, nothing that was eaten into is published.

## Main definitions

* `Db.Agrees`, `Db.Rewrites`: Paths and markers that are kept.
* `Caller.whole`, `Caller.thread`, `Caller.owned`: A row whose tree is whole, a
  thread, and a row that a caller has under way.
* `Intent`, `Careful`: What the code does not look at.
* `Marked`: Whatever was eaten into is marked.
* `Deed`: What a step does to paths, markers and trees.

## Theorems

* `publishes_whole`: In a careful run only whole trees are published.
* `publishes_gutted`: A recovery that has read its row before a correction
  publishes what that has eaten into.
-/

namespace PlexManager

namespace Eviction

open KeyedTable Interleaving Transition

/-! ### Paths and markers that are kept -/

/-- A row has the path and the marker that it had, or no path. -/
def Db.Agrees (db db' : Db) (k : RowKey) : Prop :=
  ∀ r', db'.row k = some r' → r'.libraryPath = none ∨ ∃ r, db.row k = some r ∧
    r'.libraryPath = r.libraryPath ∧ r'.partialDeletePath = r.partialDeletePath

def Db.NoNewPath (db db' : Db) (k : RowKey) : Prop :=
  ∀ r', db'.row k = some r' → r'.libraryPath = none ∨ ∃ r, db.row k = some r ∧
    r'.libraryPath = r.libraryPath

/-- At most the marker of one row is another. -/
structure Db.Rewrites (db db' : Db) (key : RowKey) : Prop where
  other : ∀ k, k ≠ key → db.Agrees db' k
  self : db.NoNewPath db' key

theorem Db.Agrees.refl (db : Db) (k : RowKey) : db.Agrees db k :=
  fun r' hr' => .inr ⟨r', hr', rfl, rfl⟩

variable {s s' : Shared} {key k : RowKey} {a : Caller} {path p : Path} {db db' : Db}
  {pc pc' : EvictPc} {c : Choice} {lease : Option Nat} {f : Row → Row} {r : Row} {st : PurgeStep}
  {t : Turn} {w : World}

theorem Db.agrees_of_map (hrow : db'.row k = (db.row k).map f) (hf : ∀ r, (f r).libraryPath = none ∨
      (f r).libraryPath = r.libraryPath ∧ (f r).partialDeletePath = r.partialDeletePath) :
    db.Agrees db' k := by
  intro r' hr'
  rw [hrow] at hr'
  rcases Option.map_eq_some_iff.mp hr' with ⟨r, hr, rfl⟩
  rcases hf r with hnone | hsame
  · exact .inl hnone
  · exact .inr ⟨r, hr, hsame⟩

section

variable (hrow : ∀ k, db'.row k = (db.row k).map fun r => if k = key then f r else r)
include hrow

theorem Db.rewrites_of_map
    (hf : ∀ r, (f r).libraryPath = none ∨ (f r).libraryPath = r.libraryPath) :
    db.Rewrites db' key := by
  refine ⟨fun k hk => Db.agrees_of_map (hrow k) fun r => ?_, fun r' hr' => ?_⟩
  · rw [if_neg hk]
    exact .inr ⟨rfl, rfl⟩
  · rw [hrow key] at hr'
    rcases Option.map_eq_some_iff.mp hr' with ⟨r, hr, rfl⟩
    rw [if_pos rfl]
    rcases hf r with hnone | hsame
    · exact .inl hnone
    · exact .inr ⟨r, hr, hsame⟩

theorem Db.agrees_of_map_self (hf : ∀ r, (f r).libraryPath = none ∨
      (f r).libraryPath = r.libraryPath ∧ (f r).partialDeletePath = r.partialDeletePath)
    (k : RowKey) : db.Agrees db' k := by
  refine Db.agrees_of_map (hrow k) fun r => ?_
  by_cases hk : k = key
  · rw [if_pos hk]
    exact hf r
  · rw [if_neg hk]
    exact .inr ⟨rfl, rfl⟩

end

theorem Row.movedFrom_agrees (allowedFrom : List RequestStatus) (status : RequestStatus) (r : Row) :
    (r.movedFrom allowedFrom status).libraryPath = r.libraryPath ∧
      (r.movedFrom allowedFrom status).partialDeletePath = r.partialDeletePath := by
  unfold Row.movedFrom
  split <;> exact ⟨rfl, rfl⟩

theorem Db.agrees_setStatusIfIn (db : Db) (key : RowKey) (status : RequestStatus)
    (allowedFrom : List RequestStatus) (k : RowKey) :
    db.Agrees (db.setStatusIfIn key status allowedFrom).2 k :=
  Db.agrees_of_map_self (row_setStatusIfIn db key status allowedFrom)
    (fun r => .inr (r.movedFrom_agrees allowedFrom status)) k

theorem Db.agrees_clear (db : Db) (key : RowKey) (path : Path) (statuses : List RequestStatus)
    (k : RowKey) : db.Agrees (db.clearLibraryPathIfSet key path statuses).2 k := by
  refine Db.agrees_of_map_self (row_clearLibraryPathIfSet db key path statuses) (fun r => ?_) k
  unfold Row.cleared
  split
  · exact .inl rfl
  · exact .inr ⟨rfl, rfl⟩

theorem Db.agrees_claim (h : db.claimForEviction key = (true, db'))
    (k : RowKey) : db.Agrees db' k :=
  Db.agrees_of_map_self (row_claimForEviction h).2 (fun _ => .inr ⟨rfl, rfl⟩) k

theorem Db.agrees_finalizeResumed (h : db.finalizeResumed key path = some db')
    (k : RowKey) : db.Agrees db' k :=
  Db.agrees_of_map_self (row_finalizeResumed h).2.2 (fun _ => .inl rfl) k

theorem Db.rewrites_arm (db : Db) (key : RowKey) (path : Path) :
    db.Rewrites (db.armPartialDelete key path) key :=
  Db.rewrites_of_map (row_modify db key _ _) fun _ => .inr rfl

theorem Db.rewrites_disarm (db : Db) (key : RowKey) :
    db.Rewrites (db.disarmPartialDelete key) key :=
  Db.rewrites_of_map (row_modify db key _ _) fun _ => .inr rfl

theorem Db.rewrites_reportIssue (db : Db) (key : RowKey) (path : Option Path) :
    db.Rewrites (db.reportIssue key path) key :=
  Db.rewrites_of_map (row_modify db key _ _) fun _ => .inr rfl

theorem Db.agrees_reportIssue_none (db : Db) (key k : RowKey) :
    db.Agrees (db.reportIssue key none) k := by
  have hrow := row_modify db key
    (fun r => { r with status := .searching, evictionRegrab := false }) (fun _ => rfl)
  exact Db.agrees_of_map_self hrow (fun _ => .inr ⟨rfl, rfl⟩) k

theorem Db.rewrites_restore (db : Db) (key : RowKey) :
    db.Rewrites (db.restoreAfterFailedDelete key) key := by
  constructor
  · intro k hk r' hr'
    rcases row_restore_other db hk with hsame | ⟨r, hr, -, hcan⟩
    · exact .inr ⟨r', hsame ▸ hr', rfl, rfl⟩
    · rw [hcan] at hr'
      cases hr'
      exact .inr ⟨r, hr, rfl, rfl⟩
  · intro r' hr'
    rw [row_restore_self] at hr'
    rcases Option.map_eq_some_iff.mp hr' with ⟨r, hr, rfl⟩
    exact .inr ⟨r, hr, rfl⟩

theorem Row.finalized_path (path : Path) (r : Row) :
    (r.finalized path).libraryPath = (r.cleared path staleBreadcrumbClearStatuses).libraryPath := by
  unfold Row.finalized
  cases r.key with
  | movie id => rfl
  | season id n => exact (Row.movedFrom_agrees _ _ _).1

theorem Db.rewrites_finalizeEvicted (db : Db) (key : RowKey) (path : Path) :
    db.Rewrites (db.finalizeEvicted key path) key := by
  refine Db.rewrites_of_map (row_finalizeEvicted db key path) fun r => ?_
  rw [Row.finalized_path]
  unfold Row.cleared
  split
  · exact .inl rfl
  · exact .inr rfl

theorem Db.agrees_finalizeEvicted (hr : db.row key = some r) (hpath : r.libraryPath = some path)
    (hst : r.status ∈ staleBreadcrumbClearStatuses) (k : RowKey) :
    db.Agrees (db.finalizeEvicted key path) k := by
  by_cases hk : k = key
  · subst hk
    intro r' hr'
    rw [row_finalizeEvicted, hr] at hr'
    simp only [Option.map_some, if_true, Option.some.injEq] at hr'
    subst hr'
    refine .inl ?_
    rw [Row.finalized_path, Row.cleared, if_pos ⟨hpath, hst⟩]
  · exact (db.rewrites_finalizeEvicted key path).other k hk

theorem Db.agrees_settleDeleted (db : Db) (key k : RowKey) :
    db.Agrees (db.clearLibraryPath key) k :=
  Db.agrees_of_map_self (row_modify db key _ _) (fun _ => .inl rfl) k

theorem Db.agrees_apply (db : Db) (v : Verb) (k : RowKey) : db.Agrees (v.apply db) k := by
  rcases row_apply db v k with hrow | ⟨-, r, hr, hpath, -⟩
  · refine Db.agrees_of_map hrow fun r => .inr ?_
    cases v with
    | rearm key | fallback key | confirm key =>
      simp only [Verb.onRow]
      split
      · exact Row.movedFrom_agrees _ _ _
      · exact ⟨rfl, rfl⟩
    | move key status =>
      simp only [Verb.onRow]
      split <;> exact ⟨rfl, rfl⟩
    | _ => exact ⟨rfl, rfl⟩
  · intro r' hr'
    obtain rfl := Option.some.inj (hr.symm.trans hr')
    exact .inl hpath

/-! ### Rows under way -/

def EvictPc.whole : EvictPc → Bool
  | .purging (.deleting removed _) => !removed
  | .twins _ _ | .coverage | .purging _ | .arm | .armed _ | .restore | .disarm
  | .disarmUnstarted => true
  | _ => false

/-- The row is claimed. -/
def EvictPc.owning : EvictPc → Bool
  | .finalize | .abandoned _ | .purging (.deleting _ _) => true
  | pc => pc.whole

def EvictPc.deleting : EvictPc → Bool
  | .purging (.deleting _ _) | .abandoned _ => true
  | _ => false

def RecoverPc.deleting : RecoverPc → Bool
  | .purging (.deleting _ _) | .abandoned _ => true
  | _ => false

def CorrectPc.whole : CorrectPc → Bool
  | .purging _ (.deleting removed _) => !removed
  | .removeTorrent (some _) | .purging _ _ => true
  | .settle _ o => o ≠ .deleted ∧ o ≠ .partialDelete
  | _ => false

def CorrectPc.owning : CorrectPc → Bool
  | .settle _ _ | .orphan _ | .purging _ _ => true
  | pc => pc.whole

def CorrectPc.deleting : CorrectPc → Option Path
  | .purging path (.deleting _ _) | .orphan path => some path
  | _ => none

/-- A row that a caller has under way, and of which it has deleted nothing. -/
def Caller.whole : Caller → Option RowKey
  | .sweep _ (.evicting _ key _ pc _ _) => if pc.whole then some key else none
  | .correction key pc => if pc.whole then some key else none
  | _ => none

def Caller.thread : Caller → Option (RowKey × Path)
  | .sweep _ (.evicting _ key path pc _ _) => if pc.deleting then some (key, path) else none
  | .sweep _ (.recovering _ r pc _) => if pc.deleting then some (r.key, r.libraryPath) else none
  | .sweep _ (.orphan key path) => some (key, path)
  | .correction key pc => pc.deleting.map fun path => (key, path)
  | _ => none

def Caller.owned : Caller → Option RowKey
  | .sweep _ (.evicting _ key _ pc _ _) => if pc.owning then some key else none
  | .sweep _ (.recovering _ r pc _) => if pc.deleting then some r.key else none
  | .sweep _ (.orphan key _) => some key
  | .correction key pc => if pc.owning then some key else none
  | _ => none

theorem EvictPc.owning_of_whole (h : pc.whole = true) : pc.owning = true := by
  cases pc with
  | purging pc => cases pc <;> rfl
  | finalize | abandoned => rfl
  | _ => exact h

theorem EvictPc.deleting_cases (h : pc.deleting = true) :
    (∃ r c, pc = .purging (.deleting r c)) ∨ ∃ r, pc = .abandoned r := by
  cases pc with
  | purging pc =>
    cases pc with
    | deleting r c => exact .inl ⟨r, c, rfl⟩
    | _ => simp [EvictPc.deleting] at h
  | abandoned r => exact .inr ⟨r, rfl⟩
  | _ => simp [EvictPc.deleting] at h

theorem EvictPc.owning_of_deleting (h : pc.deleting = true) : pc.owning = true := by
  rcases deleting_cases h with ⟨r, c, rfl⟩ | ⟨r, rfl⟩
  · rfl
  · rfl

theorem CorrectPc.owning_of_whole {pc : CorrectPc} (h : pc.whole = true) : pc.owning = true := by
  cases pc with
  | purging path pc | settle path o | orphan path => rfl
  | _ => exact h

theorem CorrectPc.owning_of_deleting {pc : CorrectPc} (h : pc.deleting = some path) :
    pc.owning = true := by
  cases pc with
  | purging path pc | orphan path => rfl
  | _ => simp [CorrectPc.deleting] at h

theorem Caller.owned_of_whole (h : a.whole = some k) : a.owned = some k := by
  have hif : ∀ {b b' : Bool} {key : RowKey}, (if b then some key else none) = some k →
      (b = true → b' = true) → (if b' then some key else none) = some k := by
    intro b b' key hb himp
    cases b with
    | false => simp at hb
    | true => rw [himp rfl]; exact hb
  unfold Caller.whole at h
  split at h
  · exact hif h EvictPc.owning_of_whole
  · exact hif h CorrectPc.owning_of_whole
  · simp at h

theorem Caller.owned_of_thread (h : a.thread = some (k, p)) : a.owned = some k := by
  unfold Caller.thread at h
  split at h
  · rename_i pc _ _
    split at h
    · rename_i hdel
      obtain ⟨rfl, -⟩ := Prod.mk.inj (Option.some.inj h)
      simp [Caller.owned, EvictPc.owning_of_deleting hdel]
    · simp at h
  · split at h
    · rename_i hdel
      obtain ⟨rfl, -⟩ := Prod.mk.inj (Option.some.inj h)
      simp [Caller.owned, hdel]
    · simp at h
  · obtain ⟨rfl, -⟩ := Prod.mk.inj (Option.some.inj h)
    rfl
  · rcases Option.map_eq_some_iff.mp h with ⟨path, hdel, heq⟩
    obtain ⟨rfl, -⟩ := Prod.mk.inj heq
    simp [Caller.owned, CorrectPc.owning_of_deleting hdel]
  · simp at h

theorem Caller.entered_of_thread (h : a.thread = some (k, p)) : a.entered = some p := by
  unfold Caller.thread at h
  split at h
  · rename_i pc _ _
    split at h
    · rename_i hdel
      obtain ⟨-, rfl⟩ := Prod.mk.inj (Option.some.inj h)
      rcases EvictPc.deleting_cases hdel with ⟨r, c, rfl⟩ | ⟨r, rfl⟩
      · rfl
      · rfl
    · simp at h
  · rename_i pc _
    split at h
    · rename_i hdel
      obtain ⟨-, rfl⟩ := Prod.mk.inj (Option.some.inj h)
      have hin : pc.entered = true := by
        cases pc with
        | purging pc =>
          cases pc with
          | deleting r c => rfl
          | _ => simp [RecoverPc.deleting] at hdel
        | abandoned r => rfl
        | _ => simp [RecoverPc.deleting] at hdel
      simp [Caller.entered, hin]
    · simp at h
  · obtain ⟨-, rfl⟩ := Prod.mk.inj (Option.some.inj h)
    rfl
  · rename_i pc
    rcases Option.map_eq_some_iff.mp h with ⟨path, hdel, heq⟩
    obtain ⟨-, rfl⟩ := Prod.mk.inj heq
    cases pc with
    | purging path' pc =>
      cases pc with
      | deleting r c =>
        cases hdel
        rfl
      | _ => simp [CorrectPc.deleting] at hdel
    | orphan path' =>
      cases hdel
      rfl
    | _ => simp [CorrectPc.deleting] at hdel
  · simp at h

/-! ### What the code does not look at -/

def Db.outstanding (db : Db) (key : RowKey) : Bool :=
  (db.row key).any fun r => r.libraryPath.any (partialDeleteOutstanding r.partialDeletePath)

/-- Nobody but the row has the path, and its marker is armed if it has. -/
def Db.Sole (db : Db) (key : RowKey) (path : Path) : Prop :=
  ∀ r ∈ db.rows.rows, r.libraryPath = some path → r.key = key ∧ r.partialDeletePath = some path

instance (db : Db) (key : RowKey) (path : Path) : Decidable (db.Sole key path) :=
  inferInstanceAs (Decidable (∀ r ∈ db.rows.rows, _ → _))

/-- What a step relies on without looking at it. -/
inductive Intent where
  | takes (key : RowKey) (path : Path)
  | deletes (key : RowKey) (path : Path)
  | publishes (key : RowKey)
  | finalizes (key : RowKey) (path : Path)
  deriving DecidableEq, Repr

/-- A row is taken with the path that is deleted, and not where a delete of it is
    outstanding. A thread starts where nobody else has its path. A recovery
    publishes nothing of which a delete is outstanding, and an eviction that does
    not clear the path of its row leaves no such marker. -/
def Intent.Safe (db : Db) : Intent → Prop
  | .takes key path =>
      ((db.row key).any fun r => r.libraryPath = some path ∧ r.partialDeletePath ≠ some path) = true
  | .deletes key path => db.Sole key path
  | .publishes key => db.outstanding key = false
  | .finalizes key path => db.outstanding key = false ∨
      ((db.row key).any fun r => r.libraryPath = some path ∧
        r.status ∈ staleBreadcrumbClearStatuses) = true

instance (db : Db) (t : Intent) : Decidable (t.Safe db) := by
  unfold Intent.Safe
  cases t <;> infer_instance

def Intent.row? : Intent → Option RowKey
  | .takes key _ | .deletes key _ => some key
  | _ => none

def Caller.intent (c : Choice) : Caller → Option Intent
  | .sweep _ (.evicting _ key path pc _ _) =>
      match pc, c.turn with
      | .claim, _ => some (.takes key path)
      | .armed _, .proceed => some (.deletes key path)
      | .finalize, _ => some (.finalizes key path)
      | _, _ => none
  | .sweep _ (.recovering _ r pc _) =>
      match pc, c.turn with
      | .confirmed _, .proceed => some (.deletes r.key r.libraryPath)
      | .restore, _ | .fold, _ => some (.publishes r.key)
      | _, _ => none
  | .correction key pc =>
      match pc, c.turn.fate with
      | .rearm (some path), _ => some (.takes key path)
      | .purging path .gate, .goes => some (.deletes key path)
      | _, _ => none
  | _ => none

def Careful (w : World) : Action → Prop
  | .act i c => ∀ t ∈ (w.actors[i]?).bind (Caller.intent c), t.Safe w.shared.db ∧
      ∀ j < w.actors.length, j ≠ i → ∀ k ∈ t.row?, (w.actors[j]?).bind Caller.owned ≠ some k
  | _ => True

instance (w : World) (a : Action) : Decidable (Careful w a) := by
  unfold Careful
  cases a <;> infer_instance

/-! ### What a step does to paths, markers and trees -/

/-- Whatever was eaten into is marked, or has no path left. -/
def Marked (s : Shared) : Prop :=
  ∀ k ∈ s.gutted, ∀ r, s.db.row k = some r →
    r.libraryPath = none ∨ r.partialDeletePath = r.libraryPath

inductive Deed (s : Shared) (a : Caller) (s' : Shared) : Prop
  | nothing (hgutted : s'.gutted = s.gutted) (hrows : ∀ k, s.db.Agrees s'.db k)
  | guts (key : RowKey) (path : Path) (hthread : a.thread = some (key, path))
      (hdb : s'.db = s.db) (hgutted : s'.gutted = s.named path ++ s.gutted)
  | rewrites (key : RowKey) (hself : a.whole = some key ∨ s.db.outstanding key = false)
      (hgutted : s'.gutted = s.gutted) (hrows : s.db.Rewrites s'.db key)
  | stamps (key : RowKey) (path : Path) (hplacing : a.placing path = true)
      (hgutted : s'.gutted = s.gutted.filter (· ≠ key)) (hdb : s'.db = s.db.stamp key path)

-- A purge eats into the tree of its path, and only its thread does.
theorem PurgeEffect.gutted {pc : PurgePc} (h : PurgeEffect s path pc s' st) :
    s'.gutted = s.gutted ∨
      (∃ r c, pc = .deleting r c) ∧ s'.gutted = s.named path ++ s.gutted := by
  have htree : (s.removeTree path).gutted = s.gutted ∨
      (s.removeTree path).gutted = s.named path ++ s.gutted := by
    rw [Shared.removeTree_eq]
    split
    · exact .inr rfl
    · exact .inl rfl
  cases h with
  | removed r c => exact .inr ⟨⟨r, c, rfl⟩, rfl⟩
  | deleted r =>
    rcases htree with hsame | hgut
    · exact .inl hsame
    · exact .inr ⟨⟨r, false, rfl⟩, hgut⟩
  | deletedCancelled r =>
    rcases htree with hsame | hgut
    · exact .inl hsame
    · exact .inr ⟨⟨r, true, rfl⟩, hgut⟩
  | _ => exact .inl rfl

theorem OrphanEffect.gutted {alive : Bool} (h : OrphanEffect s path s' alive) :
    s'.gutted = s.gutted ∨ s'.gutted = s.named path ++ s.gutted := by
  cases h with
  | removed => exact .inr rfl
  | deleted =>
    rw [Shared.removeTree_eq]
    split
    · exact .inr rfl
    · exact .inl rfl
  | _ => exact .inl rfl

theorem Deed.of_same (hdb : s'.db = s.db) (hgut : s'.gutted = s.gutted) : Deed s a s' :=
  .nothing hgut fun k => by rw [hdb]; exact Db.Agrees.refl s.db k

theorem Deed.of_purge {s'' : Shared} {pc : PurgePc} (h : PurgeEffect s path pc s' st)
    (hdb : s''.db = s'.db) (hgut : s''.gutted = s'.gutted)
    (hthr : ∀ r c, pc = .deleting r c → a.thread = some (key, path)) : Deed s a s'' := by
  have hsame : s''.db = s.db := by rw [hdb, congrArg Shared.db h.frame]
  rcases h.gutted with hnone | ⟨⟨r, c, hpc⟩, hate⟩
  · exact .of_same hsame (hgut.trans hnone)
  · exact .guts key path (hthr r c hpc) hsame (hgut.trans hate)

theorem Deed.congr {s'' : Shared} (h : Deed s a s') (hdb : s''.db = s'.db)
    (hgut : s''.gutted = s'.gutted) : Deed s a s'' := by
  cases h with
  | nothing hate hrows => exact .nothing (hgut.trans hate) (by rw [hdb]; exact hrows)
  | guts key path hthr hsame hate =>
    exact .guts key path hthr (hdb.trans hsame) (hgut.trans hate)
  | rewrites key hself hate hrows =>
    exact .rewrites key hself (hgut.trans hate) (by rw [hdb]; exact hrows)
  | stamps key path hplac hate hstm =>
    exact .stamps key path hplac (hgut.trans hate) (hdb.trans hstm)

theorem Deed.transact (t : Turn) (hdb : s'.db = (s.transact t db).db)
    (hgut : s'.gutted = (s.transact t db).gutted) (h : Deed s a { s with db }) : Deed s a s' := by
  rw [Shared.transact_eq] at hdb hgut
  by_cases hcom : t.commits = true
  · rw [if_pos hcom] at hdb
    exact h.congr hdb hgut
  · rw [if_neg hcom] at hdb
    exact .of_same hdb hgut

theorem transact_gutted (s : Shared) (t : Turn) (db : Db) :
    (s.transact t db).gutted = s.gutted := by
  rw [Shared.transact_eq]

theorem EvictEffect.deed (h : EvictEffect s lease key path pc s' pc')
    (hall : pc.whole = true → a.whole = some key)
    (hthr : pc.deleting = true → a.thread = some (key, path))
    (hsafe : pc = .finalize → (Intent.finalizes key path).Safe s.db) : Deed s a s' := by
  have hfin : (Intent.finalizes key path).Safe s.db →
      Deed s a { s with db := s.db.finalizeEvicted key path } := by
    rintro (hmark | hclr)
    · exact .rewrites key (.inr hmark) rfl (s.db.rewrites_finalizeEvicted key path)
    · rcases (Option.any_eq_true _ _).mp hclr with ⟨r, hr, hrow⟩
      simp only [decide_eq_true_eq] at hrow
      exact .nothing rfl (Db.agrees_finalizeEvicted hr hrow.1 hrow.2)
  cases h with
  | claimed db hcl => exact .nothing rfl (Db.agrees_claim hcl)
  | claimLost t db hcl fate => exact .transact t rfl rfl (.nothing rfl (Db.agrees_claim hcl))
  | purged pc s' st hpurge hls =>
    exact .of_purge hpurge rfl rfl fun r c hpc => hthr (hpc ▸ rfl)
  | armed => exact .rewrites key (.inl (hall rfl)) rfl (s.db.rewrites_arm key path)
  | armLost t fate =>
    exact .transact t rfl rfl (.rewrites key (.inl (hall rfl)) rfl (s.db.rewrites_arm key path))
  | restored t fate =>
    exact .transact t rfl rfl (.rewrites key (.inl (hall rfl)) rfl (s.db.rewrites_restore key))
  | disarmed t fate | unstartedDisarmed t fate =>
    exact .transact t rfl rfl (.rewrites key (.inl (hall rfl)) rfl (s.db.rewrites_disarm key))
  | finalized => exact (hfin (hsafe rfl)).congr rfl rfl
  | finalizeLost t fate => exact .transact t rfl rfl (hfin (hsafe rfl))
  | _ => exact .of_same rfl rfl

theorem RecoverEffect.deed {r : Snapshot} {pc pc' : RecoverPc} (h : RecoverEffect s r pc s' pc')
    (hthr : pc.deleting = true → a.thread = some (r.key, r.libraryPath))
    (hsafe : pc = .restore → s.db.outstanding r.key = false) : Deed s a s' := by
  cases h with
  | breadcrumbReleased t fate =>
    exact .transact t rfl rfl (.nothing rfl (s.db.agrees_clear r.key r.libraryPath _))
  | purged pc s' st hpurge =>
    rw [RecoverPc.ofPurge_eq]
    exact .of_purge hpurge rfl rfl fun d c hpc => hthr (hpc ▸ rfl)
  | unconfirmed fate | unstarted _ fate | released held fate =>
    rw [Shared.unregisterHeld_eq]
    exact .of_same rfl rfl
  | restored t fate =>
    exact .transact t rfl rfl (.rewrites r.key (.inr (hsafe rfl)) rfl (s.db.rewrites_restore r.key))
  | folded t fate =>
    exact .transact t rfl rfl (.nothing rfl (s.db.agrees_setStatusIfIn r.key _ _))
  | finalized held db hdb => exact .nothing rfl (Db.agrees_finalizeResumed hdb)
  | finalizeLost held t db fate hdb =>
    rw [Shared.unregisterHeld_eq]
    exact .transact t rfl rfl (.nothing rfl (Db.agrees_finalizeResumed hdb))
  | _ => exact .of_same rfl rfl

theorem takes_safe (h : (Intent.takes key path).Safe db) :
    (∃ r, db.row key = some r ∧ r.libraryPath = some path ∧ r.partialDeletePath ≠ some path) ∧
      db.outstanding key = false := by
  rcases (Option.any_eq_true _ _).mp h with ⟨r, hr, hrow⟩
  simp only [decide_eq_true_eq] at hrow
  simp [Db.outstanding, hr, hrow.1, partialDeleteOutstanding, hrow.2]

theorem CorrectEffect.deed {pc pc' : CorrectPc} (h : CorrectEffect s key pc s' pc')
    (hall : pc.whole = true → a.whole = some key)
    (hthr : ∀ path, pc.deleting = some path → a.thread = some (key, path))
    (hsafe : ∀ path, pc = .rearm (some path) → (Intent.takes key path).Safe s.db) :
    Deed s a s' := by
  have hreport : ∀ path, pc = .rearm path →
    Deed s a { s with db := s.db.reportIssue key path } := by
    intro path hpc
    cases path with
    | none => exact .nothing rfl (s.db.agrees_reportIssue_none key)
    | some path =>
      exact .rewrites key (.inr (takes_safe (hsafe path hpc)).2) rfl
        (s.db.rewrites_reportIssue key (some path))
  have hsettle : ∀ path o, pc = .settle path o →
      Deed s a { s with db := s.db.settleReport key o } := by
    rintro path o rfl
    cases o with
    | deleted => exact .nothing rfl (s.db.agrees_settleDeleted key)
    | partialDelete => exact .of_same rfl rfl
    | _ => exact .rewrites key (.inl (hall rfl)) rfl (s.db.rewrites_disarm key)
  cases h with
  | claimed path => exact .of_same rfl rfl
  | rearmed path => exact hreport path rfl
  | rearmLost path t => cases path <;> exact .transact t rfl rfl (hreport _ rfl)
  | purged path pc s' st hpurge =>
    rw [CorrectPc.ofPurge_eq]
    exact .of_purge hpurge rfl rfl fun d c hpc => hthr path (hpc ▸ rfl)
  | settled path o => exact hsettle path o rfl
  | settleLost path o t => exact .transact t rfl rfl (hsettle path o rfl)
  | orphaned path s' alive horph =>
    have hdb : s'.db = s.db := by rw [horph.frame]
    rcases horph.gutted with hnone | hate
    · exact .of_same hdb hnone
    · exact .guts key path (hthr path rfl) hdb hate
  | _ => exact .of_same rfl rfl

theorem ImportEffect.deed {pc pc' : ImportPc}
    (h : ImportEffect s key path pc s' pc') : Deed s (.importer key path pc) s' := by
  cases h with
  | stamped => exact .stamps key path (by simp [Caller.placing, ImportPc.placing]) rfl rfl
  | stampLost => exact .stamps key path (by simp [Caller.placing, ImportPc.placing]) rfl rfl
  | _ => exact .of_same rfl rfl

-- Every step of a caller, where what it relies on is so.
theorem deed_of_next (c : Choice) (s : Shared) (a : Caller)
    (hsafe : ∀ t ∈ a.intent c, t.Safe s.db) : Deed s a (a.next c s).1 := by
  cases a with
  | importer key path pc => exact (importNext_effect c.turn s key path pc).deed
  | correction key pc =>
    refine (correctNext_effect c.turn s key pc).deed ?_ ?_ ?_
    · exact fun h => if_pos h
    · intro path h
      simp [Caller.thread, h]
    · rintro path rfl
      exact hsafe (.takes key path) rfl
  | sweep args pc =>
    have heff := sweepNext_effect c s args pc
    simp only [Caller.next]
    generalize (sweepNext c s args pc).1 = s', (sweepNext c s args pc).2 = pc' at heff ⊢
    cases heff with
    | outside _ _ _ hs => exact .of_same hs.db hs.gutted
    | recovering run r rest pc s'' pc'' hcall =>
      have hkept := (SweepPc.afterRecovery_cases s'' run r rest pc'').1
      have hdeed := hcall.deed (a := .sweep args (.recovering run r pc rest))
        (fun h => if_pos h) fun hpc => hsafe (.publishes r.key) (hpc ▸ rfl)
      exact hdeed.congr hkept.db hkept.gutted
    | evicting run key path rest pool pc s'' pc'' hcall =>
      have hkept := (SweepPc.afterEviction_cases s'' run key path rest pool pc'').1
      have hdeed := hcall.deed (a := .sweep args (.evicting run key path pc rest pool))
        (fun h => if_pos h) (fun h => if_pos h)
        fun hpc => hsafe (.finalizes key path) (hpc ▸ rfl)
      exact hdeed.congr hkept.db hkept.gutted
    | orphaned key path _ alive horph =>
      have hdb : s'.db = s.db := by rw [horph.frame]
      rcases horph.gutted with hnone | hate
      · exact .of_same hdb hnone
      · exact .guts key path rfl hdb hate

/-! ### How a row comes under way -/

theorem PurgeEffect.whole {pc : PurgePc} (h : PurgeEffect s path pc s' st)
    (hall : (EvictPc.ofPurge st).whole = true) :
    s'.gutted = s.gutted ∧ EvictPc.whole (.purging pc) = true := by
  cases h with
  | removed r c => simp [EvictPc.ofPurge, EvictPc.whole] at hall
  | waited r c c' => exact ⟨rfl, hall⟩
  | failed r =>
    cases r with
    | true => simp [EvictPc.ofPurge, EvictPc.whole] at hall
    | false => exact ⟨rfl, rfl⟩
  | cut pc fate => simp [EvictPc.ofPurge, EvictPc.whole] at hall
  | deferred | entered | refused | guarded | measured | admitted => exact ⟨rfl, rfl⟩
  | _ => simp [EvictPc.ofPurge, EvictPc.whole] at hall

theorem EvictEffect.whole (h : EvictEffect s lease key path pc s' pc') (hall : pc'.whole = true) :
    s'.gutted = s.gutted ∧ (pc.whole = true ∨ pc = .claim) := by
  cases h with
  | claimed => exact ⟨rfl, .inr rfl⟩
  | purged pc s' st hpurge =>
    rcases hpurge.whole hall with ⟨hgut, hpc⟩
    exact ⟨hgut, .inl hpc⟩
  | _ => first | exact ⟨rfl, .inl rfl⟩ | simp [EvictPc.whole] at hall

theorem EvictEffect.owning (h : EvictEffect s lease key path pc s' pc')
    (howning : pc'.owning = true) : pc.owning = true ∨ pc = .claim := by
  cases h with
  | claimed => exact .inr rfl
  | purged pc s' st hpurge =>
    cases pc <;> exact .inl rfl
  | _ =>
    first
      | exact .inl rfl
      | simp [EvictPc.owning, EvictPc.whole] at howning

theorem evictNext_deleting (hdel : (evictNext t s lease key path pc).2.deleting = true) :
    (evictNext t s lease key path pc).1.db = s.db ∧
      (pc.deleting = true ∨ (∃ rows, pc = .armed rows) ∧ t = .proceed) := by
  by_cases harmed : ∃ rows, pc = .armed rows
  · rcases harmed with ⟨rows, rfl⟩
    simp only [evictNext] at hdel ⊢
    split at hdel
    · simp [EvictPc.deleting] at hdel
    split at hdel
    · simp [EvictPc.deleting] at hdel
    rename_i hlive
    rw [if_neg hlive]
    split at hdel
    · simp [EvictPc.deleting] at hdel
    · exact ⟨rfl, .inr ⟨⟨rows, rfl⟩, rfl⟩⟩
    · simp [EvictPc.deleting] at hdel
  · have heff := evictNext_effect t s lease key path pc
    revert heff hdel
    generalize (evictNext t s lease key path pc).1 = s', (evictNext t s lease key path pc).2 = pc'
    intro hdel heff
    cases heff with
    | started rows => exact absurd ⟨rows, rfl⟩ harmed
    | purged pc s' st hpurge =>
      refine ⟨by rw [hpurge.frame], .inl ?_⟩
      cases hpurge with
      | removed | waited | abandoned => rfl
      | failed r => cases r <;> simp [EvictPc.ofPurge, EvictPc.deleting] at hdel
      | _ => simp [EvictPc.ofPurge, EvictPc.deleting] at hdel
    | abandoned r => exact ⟨rfl, .inl rfl⟩
    | _ => simp [EvictPc.deleting] at hdel

theorem recoverNext_deleting {r : Snapshot} {pc : RecoverPc}
    (hdel : (recoverNext t s r pc).2.deleting = true) :
    (recoverNext t s r pc).1.db = s.db ∧
      (pc.deleting = true ∨ (∃ rows, pc = .confirmed rows) ∧ t = .proceed) := by
  by_cases hconf : ∃ rows, pc = .confirmed rows
  · rcases hconf with ⟨rows, rfl⟩
    cases t with
    | proceed => exact ⟨rfl, .inr ⟨⟨rows, rfl⟩, rfl⟩⟩
    | _ => simp [recoverNext, RecoverPc.exit, RecoverPc.deleting] at hdel
  have heff := recoverNext_effect t s r pc
  revert heff hdel
  generalize (recoverNext t s r pc).1 = s', (recoverNext t s r pc).2 = pc'
  intro hdel heff
  have hread : pc.writes = false ∨ pc'.deleting = false := by
    cases heff with
    | breadcrumbReleased | restored | folded | unfinalized | finalized | finalizeLost =>
      exact .inr rfl
    | cut pc fate => exact .inr rfl
    | _ => exact .inl rfl
  have hdb : s'.db = s.db := by
    rcases hread with hread | hno
    · exact heff.db_of_reads hread
    · cases hno.symm.trans hdel
  refine ⟨hdb, .inl ?_⟩
  cases heff with
  | started rows => exact absurd ⟨rows, rfl⟩ hconf
  | began => split at hdel <;> simp [RecoverPc.deleting] at hdel
  | allowed => split at hdel <;> simp [RecoverPc.deleting] at hdel
  | noTwins m =>
    unfold RecoverPc.adjudicate at hdel
    split at hdel
    · simp [RecoverPc.deleting] at hdel
    · split at hdel <;> simp [RecoverPc.deleting] at hdel
  | purged pc s' st hpurge =>
    cases hpurge with
    | removed | waited | abandoned => rfl
    | failed d =>
      cases d <;>
        simp [RecoverPc.ofPurge, RecoverPc.exit, RecoverPc.deleting] at hdel
    | _ =>
      simp [RecoverPc.ofPurge, RecoverPc.exit, RecoverPc.deleting] at hdel
  | abandoned d => rfl
  | _ => simp [RecoverPc.deleting] at hdel

theorem correctNext_deleting {pc : CorrectPc}
    (hdel : (correctNext t s key pc).2.deleting = some path) :
    (correctNext t s key pc).1.db = s.db ∧
      (pc.deleting = some path ∨ pc = .purging path .gate ∧ t.fate = .goes) := by
  by_cases hgate : ∃ path, pc = .purging path .gate
  · rcases hgate with ⟨path', rfl⟩
    cases hfate : t.fate with
    | goes =>
      simp only [correctNext, purgeNext, hfate, CorrectPc.ofPurge] at hdel ⊢
      cases hdel
      exact ⟨trivial, .inr ⟨rfl, trivial⟩⟩
    | _ =>
      simp only [correctNext, purgeNext, hfate, CorrectPc.ofPurge] at hdel
      simp [CorrectPc.deleting] at hdel
  · have heff := correctNext_effect t s key pc
    revert heff hdel
    generalize (correctNext t s key pc).1 = s', (correctNext t s key pc).2 = pc'
    intro hdel heff
    cases heff with
    | purged path' pc s' st hpurge =>
      have hdb : s'.db = s.db := by rw [hpurge.frame]
      cases hpurge with
      | admitted => exact absurd ⟨path', rfl⟩ hgate
      | removed | waited =>
        cases hdel
        exact ⟨hdb, .inl rfl⟩
      | abandoned =>
        cases hdel
        exact ⟨rfl, .inl rfl⟩
      | failed r =>
        cases r <;> simp [CorrectPc.ofPurge, CorrectPc.deleting] at hdel
      | _ => simp [CorrectPc.ofPurge, CorrectPc.deleting] at hdel
    | orphaned path' s' alive horph =>
      cases alive with
      | true =>
        cases hdel
        exact ⟨by rw [horph.frame], .inl rfl⟩
      | false => simp [CorrectPc.deleting] at hdel
    | torrentRemoved path' | _ => simp [CorrectPc.deleting] at hdel

theorem CorrectEffect.whole {pc pc' : CorrectPc} (h : CorrectEffect s key pc s' pc')
    (hall : pc'.whole = true) :
    s'.gutted = s.gutted ∧ (pc.whole = true ∨ ∃ path, pc = .rearm (some path)) := by
  cases h with
  | rearmed path =>
    cases path with
    | none => simp [CorrectPc.whole] at hall
    | some path => exact ⟨rfl, .inr ⟨path, rfl⟩⟩
  | torrentRemoved path => exact ⟨rfl, .inl rfl⟩
  | purged path pc s' st hpurge =>
    cases hpurge with
    | removed r c => simp [CorrectPc.ofPurge, CorrectPc.whole] at hall
    | waited r c c' => exact ⟨rfl, .inl hall⟩
    | failed r =>
      cases r with
      | true => simp [CorrectPc.ofPurge, CorrectPc.whole] at hall
      | false => exact ⟨rfl, .inl rfl⟩
    | deferred | entered | refused | guarded | measured | admitted => exact ⟨rfl, .inl rfl⟩
    | _ => simp [CorrectPc.ofPurge, CorrectPc.whole] at hall
  | orphaned path s' alive horph =>
    cases alive <;> simp [CorrectPc.whole] at hall
  | _ => simp [CorrectPc.whole] at hall

theorem CorrectEffect.owning {pc pc' : CorrectPc} (h : CorrectEffect s key pc s' pc')
    (howning : pc'.owning = true) : pc.owning = true ∨ ∃ path, pc = .rearm (some path) := by
  cases h with
  | rearmed path =>
    cases path with
    | none => simp [CorrectPc.owning, CorrectPc.whole] at howning
    | some path => exact .inr ⟨path, rfl⟩
  | torrentRemoved path => exact .inl rfl
  | purged path pc s' st hpurge | orphaned path s' alive horph => exact .inl rfl
  | _ => simp [CorrectPc.owning, CorrectPc.whole] at howning

theorem Caller.whole_next (h : (a.next c s).2.whole = some k) :
    (a.next c s).1.gutted = s.gutted ∧
      (a.whole = some k ∨ ∃ path, a.intent c = some (.takes k path)) := by
  cases a with
  | importer key path pc => simp [Caller.next, Caller.whole] at h
  | correction key pc =>
    simp only [Caller.next, Caller.whole] at h ⊢
    split at h
    · rename_i hall
      obtain rfl := Option.some.inj h
      rcases (correctNext_effect c.turn s key pc).whole hall with ⟨hgut, hpc | ⟨path, rfl⟩⟩
      · exact ⟨hgut, .inl (if_pos hpc)⟩
      · exact ⟨hgut, .inr ⟨path, rfl⟩⟩
    · simp at h
  | sweep args pc =>
    have heff := sweepNext_effect c s args pc
    simp only [Caller.next] at h ⊢
    revert heff h
    generalize (sweepNext c s args pc).1 = s', (sweepNext c s args pc).2 = pc'
    intro h heff
    cases pc' with
    | evicting run key path pc' rest pool =>
      simp only [Caller.whole] at h
      split at h
      · rename_i hall
        cases h
        rcases heff.evicting_inv with rfl | ⟨pc₀, rfl, hcall⟩
        · simp [EvictPc.whole] at hall
        · rcases hcall.whole hall with ⟨hgut, hpc | rfl⟩
          · exact ⟨hgut, .inl (if_pos hpc)⟩
          · exact ⟨hgut, .inr ⟨path, rfl⟩⟩
      · simp at h
    | _ => simp [Caller.whole] at h

theorem SweepPc.Fresh.idle {args : SweepArgs} {pc : SweepPc} (h : pc.Fresh) :
    Caller.thread (.sweep args pc) = none ∧ Caller.owned (.sweep args pc) = none := by
  cases h with
  | outside _ hout =>
    cases pc with
    | recovering | evicting | orphan => simp [SweepPc.inside] at hout
    | _ => exact ⟨rfl, rfl⟩
  | recovering | evicting => exact ⟨rfl, rfl⟩

-- The thread of a recovery or of an eviction was there before, or the step starts it.
theorem recovering_thread {args : SweepArgs} {run : SweepRun} {r : Snapshot} {pc : RecoverPc}
    {rest : List Snapshot} (hdel : (recoverNext c.turn s r pc).2.deleting = true) :
    (recoverNext c.turn s r pc).1.db = s.db ∧
      (Caller.thread (.sweep args (.recovering run r pc rest)) = some (r.key, r.libraryPath) ∨
        Caller.intent c (.sweep args (.recovering run r pc rest)) =
          some (.deletes r.key r.libraryPath)) := by
  rcases recoverNext_deleting hdel with ⟨hdb, hpc | ⟨⟨rows, rfl⟩, hturn⟩⟩
  · exact ⟨hdb, .inl (if_pos hpc)⟩
  · exact ⟨hdb, .inr (by simp [Caller.intent, hturn])⟩

theorem evicting_thread {args : SweepArgs} {run : SweepRun} {pc : EvictPc}
    {rest : Option (List Candidate)} {pool : List Candidate}
    (hdel : (evictNext c.turn s run.lease key path pc).2.deleting = true) :
    (evictNext c.turn s run.lease key path pc).1.db = s.db ∧
      (Caller.thread (.sweep args (.evicting run key path pc rest pool)) = some (key, path) ∨
        Caller.intent c (.sweep args (.evicting run key path pc rest pool)) =
          some (.deletes key path)) := by
  rcases evictNext_deleting hdel with ⟨hdb, hpc | ⟨⟨rows, rfl⟩, hturn⟩⟩
  · exact ⟨hdb, .inl (if_pos hpc)⟩
  · exact ⟨hdb, .inr (by simp [Caller.intent, hturn])⟩

theorem Caller.thread_next (h : (a.next c s).2.thread = some (k, p)) :
    (a.next c s).1.db = s.db ∧
      (a.thread = some (k, p) ∨ a.intent c = some (.deletes k p)) := by
  cases a with
  | importer key path pc => simp [Caller.next, Caller.thread] at h
  | correction key pc =>
    simp only [Caller.next, Caller.thread] at h ⊢
    rcases Option.map_eq_some_iff.mp h with ⟨path, hdel, heq⟩
    obtain ⟨rfl, rfl⟩ := Prod.mk.inj heq
    rcases correctNext_deleting hdel with ⟨hdb, hpc | ⟨rfl, hgoes⟩⟩
    · exact ⟨hdb, .inl (hpc ▸ rfl)⟩
    · exact ⟨hdb, .inr (by simp [Caller.intent, hgoes])⟩
  | sweep args pc =>
    have heff := sweepNext_effect c s args pc
    cases pc with
    | recovering run r pc rest =>
      simp only [Caller.next, sweepNext] at h ⊢
      rcases SweepPc.afterRecovery_cases (recoverNext c.turn s r pc).1 run r rest
        (recoverNext c.turn s r pc).2 with
        ⟨hkept, ⟨fate, -, hout⟩ | ⟨removed, habandoned, heq⟩ | heq⟩
      · rw [(SweepPc.Fresh.outside _ hout).idle.1] at h
        simp at h
      · -- what is abandoned goes on as an orphan
        rw [heq] at h
        obtain ⟨rfl, rfl⟩ := Prod.mk.inj (Option.some.inj h)
        have hdel : (recoverNext c.turn s r pc).2.deleting = true := by
          rw [habandoned]
          rfl
        exact (recovering_thread hdel).imp_left hkept.db.trans
      · rw [heq] at h ⊢
        simp only [Caller.thread] at h ⊢
        split at h
        · rename_i hdel
          obtain ⟨rfl, rfl⟩ := Prod.mk.inj (Option.some.inj h)
          exact recovering_thread hdel
        · simp at h
    | evicting run key path pc rest pool =>
      simp only [Caller.next, sweepNext] at h ⊢
      rcases SweepPc.afterEviction_cases (evictNext c.turn s run.lease key path pc).1 run key
        path rest pool (evictNext c.turn s run.lease key path pc).2 with
        ⟨hkept, ⟨fate, -, hout⟩ | ⟨removed, habandoned, heq⟩ | heq⟩
      · rw [(SweepPc.Fresh.outside _ hout).idle.1] at h
        simp at h
      · rw [heq] at h
        obtain ⟨rfl, rfl⟩ := Prod.mk.inj (Option.some.inj h)
        have hdel : (evictNext c.turn s run.lease key path pc).2.deleting = true := by
          rw [habandoned]
          rfl
        exact (evicting_thread hdel).imp_left hkept.db.trans
      · rw [heq] at h ⊢
        simp only [Caller.thread] at h ⊢
        split at h
        · rename_i hdel
          obtain ⟨rfl, rfl⟩ := Prod.mk.inj (Option.some.inj h)
          exact evicting_thread hdel
        · simp at h
    | orphan key path =>
      simp only [Caller.next] at h ⊢
      revert heff h
      generalize (sweepNext c s args (.orphan key path)).1 = s',
        (sweepNext c s args (.orphan key path)).2 = pc'
      intro h heff
      cases heff with
      | outside _ _ _ _ hpc => simp [SweepPc.inside] at hpc
      | orphaned _ _ _ alive horph =>
        cases alive with
        | true => exact ⟨by rw [horph.frame], .inl h⟩
        | false => simp [Caller.thread] at h
    | _ =>
      simp only [Caller.next] at h
      cases heff with
      | outside _ _ _ _ _ hnew =>
        rw [hnew.idle.1] at h
        simp at h

theorem Caller.owned_of_next_thread (h : (a.next c s).2.thread = some (k, p)) :
    a.owned = some k ∨ ∃ t, a.intent c = some t ∧ t.row? = some k := by
  rcases (Caller.thread_next h).2 with hbef | hbeg
  · exact .inl (Caller.owned_of_thread hbef)
  · exact .inr ⟨_, hbeg, rfl⟩

theorem Caller.owned_next (h : (a.next c s).2.owned = some k) :
    a.owned = some k ∨ ∃ t, a.intent c = some t ∧ t.row? = some k := by
  cases a with
  | importer key path pc => simp [Caller.next, Caller.owned] at h
  | correction key pc =>
    simp only [Caller.next, Caller.owned] at h ⊢
    split at h
    · rename_i howning
      obtain rfl := Option.some.inj h
      rcases (correctNext_effect c.turn s key pc).owning howning with hpc | ⟨path, rfl⟩
      · exact .inl (if_pos hpc)
      · exact .inr ⟨.takes key path, rfl, rfl⟩
    · simp at h
  | sweep args pc =>
    have heff := sweepNext_effect c s args pc
    have hthr : ∀ {p : Path}, (Caller.next c s (.sweep args pc)).2.thread = some (k, p) →
        Caller.owned (.sweep args pc) = some k ∨
          ∃ t, Caller.intent c (.sweep args pc) = some t ∧ t.row? = some k :=
      fun h => Caller.owned_of_next_thread h
    simp only [Caller.next] at h hthr
    revert heff h hthr
    generalize (sweepNext c s args pc).1 = s', (sweepNext c s args pc).2 = pc'
    intro h heff hthr
    cases pc' with
    | evicting run key path pc' rest pool =>
      simp only [Caller.owned] at h
      split at h
      · rename_i howning
        obtain rfl := Option.some.inj h
        rcases heff.evicting_inv with rfl | ⟨pc₀, rfl, hcall⟩
        · simp [EvictPc.owning, EvictPc.whole] at howning
        · rcases hcall.owning howning with hpc | rfl
          · exact .inl (if_pos hpc)
          · exact .inr ⟨.takes key path, rfl, rfl⟩
      · simp at h
    | recovering run r pc' rest =>
      simp only [Caller.owned] at h
      split at h
      · rename_i hdel
        cases h
        exact hthr (if_pos hdel)
      · simp at h
    | orphan key path =>
      cases h
      exact hthr rfl
    | _ => simp [Caller.owned] at h

/-! ### Runs -/

/-- A tree of which nothing is deleted is whole, and a thread is alone under its
    path. -/
structure Caller.Guarded (s : Shared) (a : Caller) : Prop where
  whole : ∀ k, a.whole = some k → k ∉ s.gutted
  sole : ∀ k p, a.thread = some (k, p) → s.db.Sole k p

theorem Db.Sole.row (h : db.Sole key path) (hr : db.row k = some r)
    (hpath : r.libraryPath = some path) : k = key ∧ r.partialDeletePath = some path := by
  have hgot := Table.find_eq_some.mp hr
  rcases h r hgot.1 hpath with ⟨hkey, hmark⟩
  exact ⟨hgot.2.symm.trans hkey, hmark⟩

theorem Db.sole_of_row (h : ∀ k r, db.row k = some r → r.libraryPath = some path →
      k = key ∧ r.partialDeletePath = some path) : db.Sole key path := by
  intro r hr hpath
  exact h r.key r (Table.find_eq_some.mpr ⟨hr, rfl⟩) hpath

theorem mem_named (h : k ∈ s.named path) :
    ∃ r, s.db.row k = some r ∧ r.libraryPath = some path := by
  simp only [Shared.named, List.mem_map, List.mem_filter, decide_eq_true_eq] at h
  rcases h with ⟨r, ⟨hr, hpath⟩, rfl⟩
  exact ⟨r, Table.find_eq_some.mpr ⟨hr, rfl⟩, hpath⟩

theorem outstanding_of_marked (hr : db.row k = some r) (hpath : r.libraryPath = some path)
    (hmark : r.partialDeletePath = some path) : db.outstanding k = true := by
  simp [Db.outstanding, hr, hpath, partialDeleteOutstanding, hmark]

-- Where no delete is outstanding, the tree of a row is whole or it has no path.
theorem Marked.whole_of_safe (h : Marked s) (hr : s.db.row k = some r)
    (hsafe : s.db.outstanding k = false) (hmem : k ∈ s.gutted) : r.libraryPath = none := by
  rcases h k hmem r hr with hnone | hmark
  · exact hnone
  cases hpath : r.libraryPath with
  | none => rfl
  | some path =>
    have houts := outstanding_of_marked hr hpath (hmark.trans hpath)
    exact absurd (houts.symm.trans hsafe) nofun

theorem Marked.of_agrees (h : Marked s) (hmem : k ∈ s.gutted) (hrow : s.db.Agrees db k) (r' : Row)
    (hr' : db.row k = some r') : r'.libraryPath = none ∨ r'.partialDeletePath = r'.libraryPath := by
  rcases hrow r' hr' with hnone | ⟨r, hr, hpath, hmark⟩
  · exact .inl hnone
  · rcases h k hmem r hr with hnone | hmarked
    · exact .inl (hpath.trans hnone)
    · exact .inr (by rw [hpath, hmark, hmarked])

theorem Deed.marked (hdeed : Deed s a s') (h : Marked s) (ha : a.Guarded s) : Marked s' := by
  intro k hmem
  cases hdeed with
  | nothing hgut hrows =>
    rw [hgut] at hmem
    exact h.of_agrees hmem (hrows k)
  | guts key path hthr hdb hgut =>
    rw [hgut] at hmem
    rw [hdb]
    intro r hr
    rcases List.mem_append.mp hmem with hname | hmem
    · rcases mem_named hname with ⟨r', hr', hpath⟩
      obtain rfl : r' = r := Option.some.inj (hr'.symm.trans hr)
      rcases (ha.sole key path hthr).row hr hpath with ⟨-, hmark⟩
      exact .inr (hmark.trans hpath.symm)
    · exact h k hmem r hr
  | rewrites key hself hgut hrows =>
    rw [hgut] at hmem
    by_cases hk : k = key
    · subst hk
      intro r' hr'
      rcases hrows.self r' hr' with hnone | ⟨r, hr, hpath⟩
      · exact .inl hnone
      · rcases hself with hall | hsafe
        · exact absurd hmem (ha.whole k hall)
        · exact .inl (hpath.trans (h.whole_of_safe hr hsafe hmem))
    · exact h.of_agrees hmem (hrows.other k hk)
  | stamps key path hplac hgut hdb =>
    rw [hgut] at hmem
    simp only [List.mem_filter, decide_eq_true_eq] at hmem
    refine h.of_agrees hmem.1 ?_
    rw [hdb]
    exact Db.agrees_of_map (row_modify s.db key _ _ k)
      fun r => by rw [if_neg hmem.2]; exact .inr ⟨rfl, rfl⟩

-- A thread stays alone under its path where no path is new and the markers over it are kept.
theorem Db.Sole.of_agrees (h : db.Sole key path) {r' : Row} (hrow : db.Agrees db' k)
    (hr' : db'.row k = some r') (hpath : r'.libraryPath = some path) :
    k = key ∧ r'.partialDeletePath = some path := by
  rcases hrow r' hr' with hnone | ⟨r, hr, hsame, hmark⟩
  · exact absurd (hpath.symm.trans hnone) nofun
  · rcases h.row hr (hsame.symm.trans hpath) with ⟨hkey, hsole⟩
    exact ⟨hkey, hmark.trans hsole⟩

theorem Db.Sole.agrees (h : db.Sole key path) (hrows : ∀ k, db.Agrees db' k) : db'.Sole key path :=
  Db.sole_of_row fun k _ => h.of_agrees (hrows k)

-- What a caller relies on survives the steps of one that has another row under way and places
-- no files under its path.
theorem Deed.guarded {b : Caller} (hdeed : Deed s a s') (ha : a.Guarded s) (hb : b.Guarded s)
    (hsep : ∀ k, a.owned = some k → b.owned ≠ some k)
    (hfree : ∀ p, b.entered = some p → a.placing p = false) : b.Guarded s' := by
  constructor
  · intro k hall
    have hbef := hb.whole k hall
    cases hdeed with
    | nothing hgut hrows | rewrites key hself hgut hrows => rw [hgut]; exact hbef
    | stamps key path hplac hgut hdb =>
      rw [hgut]
      exact fun hmem => hbef (List.mem_filter.mp hmem).1
    | guts key path hthr hdb hgut =>
      rw [hgut]
      intro hmem
      rcases List.mem_append.mp hmem with hname | hmem
      -- Only the thread over a path eats into it, and its row is no other caller's.
      · rcases mem_named hname with ⟨r, hr, hpath⟩
        obtain ⟨rfl, -⟩ := (ha.sole key path hthr).row hr hpath
        exact hsep k (Caller.owned_of_thread hthr) (Caller.owned_of_whole hall)
      · exact hbef hmem
  · intro k p hthr
    have hbef := hb.sole k p hthr
    cases hdeed with
    | nothing hgut hrows => exact hbef.agrees hrows
    | guts key path _ hdb hgut => rw [hdb]; exact hbef
    | stamps key path hplac hgut hdb =>
      rw [hdb]
      refine Db.sole_of_row fun k' r' hr' hpath => ?_
      rw [Db.stamp, row_modify] at hr'
      rcases Option.map_eq_some_iff.mp hr' with ⟨r, hr, rfl⟩
      by_cases hk : k' = key
      · rw [if_pos hk] at hpath
        obtain rfl : path = p := Option.some.inj hpath
        -- No import stamps a path that a purge has entered.
        have hno := hfree path (Caller.entered_of_thread hthr)
        exact absurd (hplac.symm.trans hno) nofun
      · rw [if_neg hk] at hpath ⊢
        exact hbef.row hr hpath
    | rewrites key hself' hgut hrows =>
      refine Db.sole_of_row fun k' r' hr' hpath => ?_
      by_cases hk : k' = key
      · subst hk
        rcases hrows.self r' hr' with hnone | ⟨r, hr, hsame⟩
        · exact absurd (hpath.symm.trans hnone) nofun
        rcases hbef.row hr (hsame.symm.trans hpath) with ⟨rfl, hmark⟩
        rcases hself' with hall | hsafe
        · exact absurd (Caller.owned_of_thread hthr) (hsep k' (Caller.owned_of_whole hall))
        · have houts := outstanding_of_marked hr (hsame.symm.trans hpath) hmark
          exact absurd (houts.symm.trans hsafe) nofun
      · exact hbef.of_agrees (hrows.other k' hk) hr' hpath

theorem Caller.Guarded.next (h : a.Guarded s) (hmark : Marked s)
    (hsafe : ∀ t ∈ a.intent c, t.Safe s.db) : (a.next c s).2.Guarded (a.next c s).1 := by
  constructor
  · intro k hall
    rcases Caller.whole_next hall with ⟨hgut, hbef | ⟨path, htakes⟩⟩
    · rw [hgut]
      exact h.whole k hbef
    rw [hgut]
    intro hmem
    rcases takes_safe (hsafe _ htakes) with ⟨⟨r, hr, hpath, -⟩, houts⟩
    have hnone := hmark.whole_of_safe hr houts hmem
    exact absurd (hpath.symm.trans hnone) nofun
  · intro k p hthr
    rcases Caller.thread_next hthr with ⟨hdb, hbef | hdel⟩
    · rw [hdb]
      exact h.sole k p hbef
    · rw [hdb]
      exact hsafe _ hdel

/-- No two callers have the same row under way, and everything eaten into is
    marked. -/
def guardedOutline : Outline Shared Caller where
  Shared := Marked
  Local := fun s a => a.Guarded s
  Apart := fun a b => ∀ k, a.owned = some k → b.owned ≠ some k
  weight := fun _ => 0
  held := fun _ => 0

/-- What one caller may rely on beside another, at a step with a choice. -/
structure Beside (c : Choice) (a b : Caller) : Prop where
  unowned : ∀ t ∈ a.intent c, ∀ k ∈ t.row?, b.owned ≠ some k
  unplaced : ∀ p, b.entered = some p → a.placing p = false

theorem guardedOutline_sound (c : Choice) :
    guardedOutline.SoundBeside Caller.next
      (fun s a c' => c' = c ∧ ∀ t ∈ a.intent c, t.Safe s.db) (Beside c) where
  symm := fun a b h k hb ha => h k ha hb
  own := by
    rintro s a _ hs ha _ ⟨rfl, hsafe⟩
    exact ⟨(deed_of_next _ s a hsafe).marked hs ha, ha.next hs hsafe⟩
  frame := by
    rintro s a b _ hs ha hb hsep hby _ ⟨rfl, hsafe⟩
    exact (deed_of_next _ s a hsafe).guarded ha hb hsep hby.unplaced
  apart := by
    rintro s a b _ hs ha hb hsep hby ⟨rfl, -⟩ k hown
    rcases Caller.owned_next hown with hbef | ⟨t, ht, hrow⟩
    · exact hsep k hbef
    · exact hby.unowned t ht k hrow
  account := fun _ _ _ _ _ _ => rfl

theorem Marked.agrees (h : Marked s) (hgut : s'.gutted = s.gutted)
    (hrows : ∀ k, s.db.Agrees s'.db k) : Marked s' :=
  fun k hmem => h.of_agrees (hgut ▸ hmem) (hrows k)

theorem Caller.Guarded.agrees (h : a.Guarded s) (hgut : s'.gutted = s.gutted)
    (hrows : ∀ k, s.db.Agrees s'.db k) : a.Guarded s' := by
  exact ⟨fun k hall => by rw [hgut]; exact h.whole k hall,
    fun k p hthr => (h.sole k p hthr).agrees hrows⟩

theorem guarded_of_idle (hidle : a.owned = none) : a.Guarded s :=
  ⟨fun _ hall => absurd (hidle.symm.trans (Caller.owned_of_whole hall)) nofun,
    fun _ _ hthr => absurd (hidle.symm.trans (Caller.owned_of_thread hthr)) nofun⟩

theorem guarded_of_step {w' : World} {a : Action} (haccounted : w.Accounted)
    (h : guardedOutline.Holds w) (hcare : Careful w a) (hstep : step w a = some w') :
    guardedOutline.Holds w' := by
  have hspn : ∀ b : Caller, b.owned = none → w' = w.spawn b → guardedOutline.Holds w' := by
    rintro b hidle rfl
    refine h.spawn (fun a b h k hb ha => h k ha hb) (guarded_of_idle hidle) ?_ rfl
    exact fun _ _ k hk => absurd (hidle.symm.trans hk) nofun
  have hkept : ∀ {s' : Shared}, w' = { w with shared := s' } → s'.gutted = w.shared.gutted →
      (∀ k, w.shared.db.Agrees s'.db k) → guardedOutline.Holds w' := by
    rintro s' rfl hgut hrows
    have hmark : Marked w.shared := h.shared
    exact ⟨hmark.agrees hgut hrows,
      fun b hb => Caller.Guarded.agrees (h.locals b hb) hgut hrows, h.apart, h.account⟩
  cases a with
  | sweep args => exact hspn (.sweep args .start) rfl (Option.some.inj hstep).symm
  | report key => exact hspn (.correction key .check) rfl (Option.some.inj hstep).symm
  | importInto key path =>
    exact hspn (.importer key path .entering) rfl (Option.some.inj hstep).symm
  | act i c =>
    refine (guardedOutline_sound c).act h (fun a b j hne hi hj => ?_) (fun a hi => ?_) hstep
    · refine ⟨fun t ht k hk hown => ?_, fun p hin => ?_⟩
      · have hall := (hcare t (by rw [hi]; exact ht)).2 j
          (List.getElem?_eq_some_iff.mp hj).1 hne k hk
        exact hall (by rw [hj]; exact hown)
      · exact haccounted.not_placing (List.mem_of_getElem? hj) (List.mem_of_getElem? hi) hin
    · exact ⟨rfl, fun t ht => (hcare t (by rw [hi]; exact ht)).1⟩
  | other v =>
    exact hkept (Option.some.inj hstep).symm rfl fun k => w.shared.db.agrees_apply v k
  | vanish path =>
    exact hkept (Option.some.inj hstep).symm rfl fun k => Db.Agrees.refl _ k
  | crash =>
    cases hstep
    exact ⟨h.shared, fun _ hb => absurd hb nofun, List.Pairwise.nil, rfl⟩

theorem guarded_of_run {trees : List Path} {as : List Action}
    (hrun : run step (World.idle db trees) as = some w)
    (hmeet : StepsMeet step Careful (World.idle db trees) as) : guardedOutline.Holds w := by
  refine (invariant_of_meeting_run (I := fun w => World.Accounted w ∧ guardedOutline.Holds w)
    (fun w a w' h hcare hstep => ⟨h.1.step hstep, guarded_of_step h.1 h.2 hcare hstep⟩)
    (World.idle db trees) w as ⟨accounted_of_idle db trees, ?_⟩ hmeet hrun).2
  exact ⟨fun _ hmem => absurd hmem nofun,
    fun _ hb => absurd hb nofun, List.Pairwise.nil, rfl⟩

/-! ### What is published -/

def Db.Unpublished (db db' : Db) (k : RowKey) : Prop :=
  ∀ r', db'.row k = some r' → r'.status = .available →
    ∃ r, db.row k = some r ∧ r.status = .available

theorem Db.Unpublished.refl (db : Db) (k : RowKey) : db.Unpublished db k :=
  fun r' hr' h => ⟨r', hr', h⟩

theorem Db.unpublished_of_map
    (hrow : ∀ k, db'.row k = (db.row k).map fun r => if k = key then f r else r)
    (hf : k = key → ∀ r, (f r).status = .available → r.status = .available) :
    db.Unpublished db' k := by
  intro r' hr' hav
  rw [hrow k] at hr'
  rcases Option.map_eq_some_iff.mp hr' with ⟨r, hr, rfl⟩
  by_cases hk : k = key
  · rw [if_pos hk] at hav
    exact ⟨r, hr, hf hk r hav⟩
  · rw [if_neg hk] at hav
    exact ⟨r, hr, hav⟩

theorem Row.movedFrom_unpublished {allowedFrom : List RequestStatus} {status : RequestStatus}
    (hst : status ≠ .available)
    (h : (r.movedFrom allowedFrom status).status = .available) : r.status = .available := by
  unfold Row.movedFrom at h
  split at h
  · exact absurd h hst
  exact h

theorem Row.cleared_status (path : Path) (statuses : List RequestStatus) (r : Row) :
    (r.cleared path statuses).status = r.status := by
  unfold Row.cleared
  split <;> rfl

theorem Db.Unpublished.transact (h : s.db.Unpublished db k)
    (t : Turn) : s.db.Unpublished (s.transact t db).db k := by
  unfold Shared.transact
  split
  · exact h
  · exact Db.Unpublished.refl s.db k

theorem Db.unpublished_finalizeEvicted (db : Db) (key : RowKey) (path : Path) (k : RowKey) :
    db.Unpublished (db.finalizeEvicted key path) k := by
  refine Db.unpublished_of_map (row_finalizeEvicted db key path) fun _ r h => ?_
  unfold Row.finalized at h
  cases hkey : r.key with
  | movie id =>
    rw [hkey] at h
    rw [← Row.cleared_status path staleBreadcrumbClearStatuses r]
    exact h
  | season id n =>
    rw [hkey] at h
    rw [← Row.cleared_status path staleBreadcrumbClearStatuses r]
    exact Row.movedFrom_unpublished (by decide) h

theorem Db.unpublished_restore (hk : k ≠ key) :
    db.Unpublished (db.restoreAfterFailedDelete key) k := by
  intro r' hr' hav
  rcases row_restore_other db hk with hrow | ⟨r, hr, -, hcan⟩
  · exact ⟨r', hrow ▸ hr', hav⟩
  · rw [hcan] at hr'
    cases hr'
    simp at hav

theorem EvictEffect.publishes (h : EvictEffect s lease key path pc s' pc') (k : RowKey) :
    (pc = .restore ∧ k = key ∧ s'.gutted = s.gutted) ∨ s.db.Unpublished s'.db k := by
  have hsame : s.db.Unpublished s.db k := Db.Unpublished.refl s.db k
  have harm : s.db.Unpublished (s.db.armPartialDelete key path) k :=
    Db.unpublished_of_map (row_modify s.db key _ _) fun _ _ h => h
  have hdis : s.db.Unpublished (s.db.disarmPartialDelete key) k :=
    Db.unpublished_of_map (row_modify s.db key _ _) fun _ _ h => h
  have hfin := s.db.unpublished_finalizeEvicted key path k
  have hcl : ∀ {db : Db}, s.db.claimForEviction key = (true, db) → s.db.Unpublished db k :=
    fun hcl => Db.unpublished_of_map (row_claimForEviction hcl).2 fun _ _ h =>
      absurd h nofun
  cases h with
  | claimed db hdb => exact .inr (hcl hdb)
  | claimLost t db hdb => exact .inr ((hcl hdb).transact t)
  | purged pc s' st hpurge =>
    refine .inr ?_
    rw [congrArg Shared.db hpurge.frame]
    exact hsame
  | armed => exact .inr harm
  | armLost t => exact .inr (harm.transact t)
  | disarmed t | unstartedDisarmed t => exact .inr (hdis.transact t)
  | finalized => exact .inr hfin
  | finalizeLost t => exact .inr (hfin.transact t)
  | restored t =>
    by_cases hk : k = key
    · exact .inl ⟨rfl, hk, transact_gutted s t _⟩
    · exact .inr (Db.Unpublished.transact (Db.unpublished_restore hk) t)
  | _ => exact .inr hsame

theorem Db.NoNewPath.transact (h : s.db.NoNewPath db k)
    (t : Turn) : s.db.NoNewPath (s.transact t db).db k := by
  unfold Shared.transact
  split
  · exact h
  · exact fun r' hr' => .inr ⟨r', hr', rfl⟩

theorem Db.Agrees.noNewPath (h : db.Agrees db' k) : db.NoNewPath db' k := by
  intro r' hr'
  rcases h r' hr' with hnone | ⟨r, hr, hpath, -⟩
  · exact .inl hnone
  · exact .inr ⟨r, hr, hpath⟩

theorem RecoverEffect.publishes {r : Snapshot} {pc pc' : RecoverPc}
    (h : RecoverEffect s r pc s' pc') (k : RowKey) :
    ((pc = .restore ∨ pc = .fold) ∧ k = r.key ∧ s'.gutted = s.gutted ∧
      s.db.NoNewPath s'.db k) ∨ s.db.Unpublished s'.db k := by
  have hsame : s.db.Unpublished s.db k := Db.Unpublished.refl s.db k
  have hfin : ∀ {db : Db}, s.db.finalizeResumed r.key r.libraryPath = some db →
      s.db.Unpublished db k := by
    intro db hdb
    refine Db.unpublished_of_map (row_finalizeResumed hdb).2.2 fun _ r h => ?_
    exact Row.movedFrom_unpublished (by decide) h
  by_cases hwr : pc.writes = true
  · cases h with
    | breadcrumbReleased t =>
      refine .inr (Db.Unpublished.transact ?_ t)
      refine Db.unpublished_of_map (row_clearLibraryPathIfSet s.db _ _ _) fun _ r h => ?_
      rw [← Row.cleared_status]
      exact h
    | restored t =>
      by_cases hk : k = r.key
      · subst hk
        exact .inl ⟨.inl rfl, rfl, transact_gutted s t _,
          Db.NoNewPath.transact (s.db.rewrites_restore r.key).self t⟩
      · exact .inr (Db.Unpublished.transact (Db.unpublished_restore hk) t)
    | folded t =>
      by_cases hk : k = r.key
      · exact .inl ⟨.inr rfl, hk, transact_gutted s t _,
          (s.db.agrees_setStatusIfIn r.key _ _ k).noNewPath.transact t⟩
      · refine .inr (Db.Unpublished.transact ?_ t)
        exact Db.unpublished_of_map (row_setStatusIfIn s.db _ _ _) fun h => absurd h hk
    | unfinalized => exact .inr hsame
    | finalized held db hdb => exact .inr (hfin hdb)
    | finalizeLost held t db fate hdb =>
      refine .inr ?_
      rw [Shared.unregisterHeld_eq]
      exact (hfin hdb).transact t
    | cut => exact .inr hsame
    | _ => simp [RecoverPc.writes] at hwr
  · rw [h.db_of_reads (by simpa using hwr)]
    exact .inr hsame

/-- A step of a sweep that moves a row to `available`. -/
structure Publishes (w : World) (i : Nat) (c : Choice) (w' : World) (k : RowKey) : Prop where
  step : step w (.act i c) = some w'
  sweep : ∃ args pc, w.actors[i]? = some (.sweep args pc)
  before : ∀ r, w.shared.db.row k = some r → r.status ≠ .available
  after : ∃ r, w'.shared.db.row k = some r ∧ r.status = .available

theorem Publishes.not_unpublished {w' : World} {i : Nat}
    (h : Publishes w i c w' k) : ¬ w.shared.db.Unpublished w'.shared.db k := by
  intro hno
  rcases h.after with ⟨r', hr', hav⟩
  rcases hno r' hr' hav with ⟨r, hr, hbef⟩
  exact h.before r hr hbef

/-- No sweep publishes what a thread has eaten into, in a run in which whatever
    the code relies on without looking at it is so. -/
theorem publishes_whole {db : Db} {trees : List Path} {as : List Action} {w w' : World} {i : Nat}
    {c : Choice} {k : RowKey} (hrun : run step (World.idle db trees) as = some w)
    (hmeet : StepsMeet step Careful (World.idle db trees) as) (hcareful : Careful w (.act i c))
    (hpublishes : Publishes w i c w' k) :
    k ∈ w'.shared.gutted → ∀ r, w'.shared.db.row k = some r → r.libraryPath = none := by
  have hgrd := guarded_of_run hrun hmeet
  have hmark : Marked w.shared := hgrd.shared
  have hno := hpublishes.not_unpublished
  rcases hpublishes.sweep with ⟨args, pc, hat⟩
  have hloc : Caller.Guarded w.shared (.sweep args pc) :=
    hgrd.locals _ (List.mem_of_getElem? hat)
  have hsafe : ∀ t ∈ Caller.intent c (.sweep args pc), t.Safe w.shared.db := by
    intro t ht
    exact (hcareful t (by rw [hat]; exact ht)).1
  have hstep := hpublishes.step
  simp only [step, World.act, hat, Option.some.injEq] at hstep
  subst hstep
  have heff := sweepNext_effect c w.shared args pc
  simp only [Caller.next] at hno ⊢
  revert heff hno
  generalize (sweepNext c w.shared args pc).1 = s', (sweepNext c w.shared args pc).2 = pc'
  intro hno heff hmem r hr
  cases heff with
  | outside _ _ _ hs =>
    rw [hs.db] at hno
    exact absurd (Db.Unpublished.refl _ k) hno
  | orphaned key path _ alive horph =>
    rw [congrArg Shared.db horph.frame] at hno
    exact absurd (Db.Unpublished.refl _ k) hno
  | evicting run key path rest pool pc s'' pc'' hcall =>
    have hkept := (SweepPc.afterEviction_cases s'' run key path rest pool pc'').1
    rw [hkept.gutted] at hmem
    rw [hkept.db] at hno
    rcases hcall.publishes k with ⟨rfl, rfl, hgut⟩ | hunpub
    · -- The row is one of which the eviction has deleted nothing.
      rw [hgut] at hmem
      exact absurd hmem (hloc.whole k rfl)
    · exact absurd hunpub hno
  | recovering run snap rest pc s'' pc'' hcall =>
    have hkept := (SweepPc.afterRecovery_cases s'' run snap rest pc'').1
    rw [hkept.gutted] at hmem
    rw [hkept.db] at hno hr
    rcases hcall.publishes k with ⟨hpc, rfl, hgut, hpath⟩ | hunpub
    · -- The marker of the row, as it is now, tells that nothing is deleted.
      rw [hgut] at hmem
      have houts : w.shared.db.outstanding snap.key = false := by
        refine hsafe (.publishes snap.key) ?_
        rcases hpc with rfl | rfl <;> rfl
      rcases hpath r hr with hnone | ⟨r₀, hr₀, hsame⟩
      · exact hnone
      · exact hsame.trans (hmark.whole_of_safe hr₀ houts hmem)
    · exact absurd hunpub hno

/-! ### A report that comes between -/

/-- Whether the first actor, a sweep, moves a row to `available`, with that row
    and whether anything of its tree was eaten into. -/
def publishedBy (k : RowKey) (w w' : World) : Option (Row × Bool) :=
  match (w.actors[0]? : Option Caller), w.shared.db.row k, w'.shared.db.row k with
  | some (.sweep _ _), some r, some r' =>
      if r.status ≠ .available ∧ r'.status = .available then some (r', k ∈ w'.shared.gutted)
      else none
  | _, _, _ => none

theorem exists_publish (w₀ : World) (as : List Action) (k : RowKey) (r : Row) (gutted : Bool)
    (h : ((run step w₀ as).bind fun w => (step w (.act 0 {})).bind (publishedBy k w)) =
      some (r, gutted)) :
    ∃ w w', run step w₀ as = some w ∧ Publishes w 0 {} w' k ∧ w'.shared.db.row k = some r ∧
      (gutted = true → k ∈ w'.shared.gutted) := by
  rcases Option.bind_eq_some_iff.mp h with ⟨w, hw, hrest⟩
  rcases Option.bind_eq_some_iff.mp hrest with ⟨w', hw', hpub⟩
  unfold publishedBy at hpub
  split at hpub
  · rename_i args pc r₀ r' hat hr₀ hr'
    split at hpub
    · rename_i hmov
      obtain ⟨rfl, rfl⟩ := Prod.mk.inj (Option.some.inj hpub)
      have hbef : ∀ r, w.shared.db.row k = some r → r.status ≠ .available := by
        intro r hr
        obtain rfl : r₀ = r := Option.some.inj (hr₀.symm.trans hr)
        exact hmov.1
      exact ⟨w, w', hw, ⟨hw', ⟨args, pc, hat⟩, hbef, r', hr', hmov.2⟩, hr',
        fun hmem => by simpa using hmem⟩
    · simp at hpub
  · simp at hpub

/-- The process dies before anything of the movie is deleted, and the next sweep
    goes on to where it gives the movie back. -/
def recoversUpToRestore : List Action :=
  evictsUpToPermit ++ [.crash, .sweep movieSweep] ++ List.replicate 16 (.act 0 {})

/-- The movie is published, with the tree that it has always had. -/
theorem publishes_whole_movie :
    ∃ w w', run step unprotectedWorld recoversUpToRestore = some w ∧
      Publishes w 0 {} w' (.movie 1) ∧
      (RowKey.movie 1 ∈ w'.shared.gutted →
        ∀ r, w'.shared.db.row (.movie 1) = some r → r.libraryPath = none) := by
  rcases exists_publish unprotectedWorld recoversUpToRestore (.movie 1) watchedMovie false
    (by decide +kernel) with ⟨w, w', hw, hpub, -, -⟩
  have hcare : ((run step unprotectedWorld recoversUpToRestore).all
      fun w => Careful w (.act 0 {})) = true := by
    decide +kernel
  rw [hw] at hcare
  have hlast : Careful w (.act 0 {}) := by simpa using hcare
  exact ⟨w, w', hw, hpub, publishes_whole hw (by decide +kernel) hlast hpub⟩

def watchedSeason : Row :=
  { key := .season 1 1
    status := .available
    libraryPath := some "/tv/Show (2010)/Season 01" }

def seasonLibrary : Db where
  rows := ⟨[watchedSeason], by decide⟩
  tmdbId := fun id => 10 * id
  keepForever := []
  watchlist := []
  downloads := ⟨[], Downloads.slots_nil, Downloads.seasonal_nil, Downloads.claimed_nil⟩
  history := []

def seasonWorld : World := World.idle seasonLibrary ["/tv/Show (2010)/Season 01"]

def seasonSweep : SweepArgs where
  mediaType := .tv
  ownsPath := fun _ => true

/-- An eviction is interrupted right after its claim. The season is requested
    again and searched for. -/
def claimsThenSearches : List Action :=
  .sweep seasonSweep :: List.replicate 14 (.act 0 {}) ++ .act 0 { selected := [.season 1 1] } ::
    List.replicate 9 (.act 0 {}) ++
    [.crash, .other (.rearm (.season 1 1)), .other (.move (.season 1 1) .searching)]

/-- The next sweep has read the season when the episode fallback completes it and
    it is reported. The delete of the correction stops halfway. -/
def reportsWhatIsRead : List Action :=
  .sweep seasonSweep :: List.replicate 10 (.act 0 {}) ++
    [.other (.fallback (.season 1 1)), .report (.season 1 1)] ++ List.replicate 8 (.act 1 {}) ++
    [.act 1 { turn := .removes }, .act 1 { turn := .ends false }, .act 1 {}, .act 1 {}]

/-- The sweep takes the season up with the marker that it has read, and
    publishes it. -/
theorem publishes_gutted :
    ∃ w w', run step seasonWorld
        (claimsThenSearches ++ reportsWhatIsRead ++ List.replicate 6 (.act 0 {})) = some w ∧
      Publishes w 0 {} w' (.season 1 1) ∧ RowKey.season 1 1 ∈ w'.shared.gutted ∧
      w'.shared.db.row (.season 1 1) =
        some { watchedSeason with partialDeletePath := some "/tv/Show (2010)/Season 01" } := by
  rcases exists_publish seasonWorld
    (claimsThenSearches ++ reportsWhatIsRead ++ List.replicate 6 (.act 0 {})) (.season 1 1)
    { watchedSeason with partialDeletePath := some "/tv/Show (2010)/Season 01" } true
    (by decide +kernel) with ⟨w, w', hw, hpub, hrow, hgut⟩
  exact ⟨w, w', hw, hpub, hgut rfl, hrow⟩

end Eviction

end PlexManager
