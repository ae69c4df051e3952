import PlexManager.Theory.Eviction.Effects
import PlexManager.Lib.Transition

/-!
# What an eviction has looked for

An eviction deletes only what nobody protects. A title is protected by a pin or
by a watchlist, its path by another live row that has it, and a season by a
download that fetches it. Each of these is looked for once, one after another:
the claim of the row asks for the first two, and the others are read after it.
Then come the probes of the path and the wait for a permit, which may take any
time, and only then the marker is armed and the thread started.

What was not there when it was looked for may be there by then. So a delete
rests on a promise of the others: whoever protects a row does so before it is
looked for, or after the marker is armed. In every run that keeps the promise,
nothing that is deleted was protected when its marker was armed. A pin that is
set while the eviction waits breaks it.

## Theorems

* `deletes_unprotected`: A thread starts only for what was unprotected.
* `deletes_pinned`: A pin that comes late is not seen.
-/

namespace PlexManager

namespace Eviction

open KeyedTable Interleaving Transition

/-! ### Protection -/

/-- What may speak against deleting the path of a row. -/
inductive Protection where
  | pin
  | watchlist
  | twin (mediaType : MediaType)
  | coverage
  deriving DecidableEq, Repr

def Protection.holds (db : Db) (key : RowKey) (path : Path) : Protection → Bool
  | .pin => db.pinned key
  | .watchlist => db.watchlisted key
  | .twin mediaType => db.claimsPath mediaType path key
  | .coverage => db.coverageClaimActive key

/-- Nobody protects the row or its path. -/
structure Unprotected (db : Db) (key : RowKey) (path : Path) : Prop where
  unpinned : db.pinned key = false
  unlisted : db.watchlisted key = false
  untwinned : ∀ r ∈ db.rows.rows, r.key ≠ key → r.claims path = false
  uncovered : db.coverageClaimActive key = false

variable {db : Db} {key : RowKey} {path : Path} {pc pc' : EvictPc} {s s' : Shared} {a : Caller}
  {w : World} {args : SweepArgs}

theorem claimsPath_eq_false {mediaType : MediaType} :
    db.claimsPath mediaType path key = false ↔
      ∀ r ∈ db.rows.rows, r.key.mediaType = mediaType → r.key ≠ key → r.claims path = false := by
  simp only [Db.claimsPath, List.any_eq_false, Bool.and_eq_true, decide_eq_true_eq, not_and,
    Bool.not_eq_true]
  constructor
  · intro h r hr hmedia hne
    exact h r hr ⟨hmedia, hne⟩
  · intro h r hr hboth
    exact h r hr hboth.1 hboth.2

theorem MediaType.eq_or_other (m m' : MediaType) : m' = m ∨ m' = m.other := by
  cases m <;> cases m' <;> simp [MediaType.other]

theorem unprotected_of_all
    (h : ∀ p : Protection, p.holds db key path = false) : Unprotected db key path := by
  refine ⟨h .pin, h .watchlist, ?_, h .coverage⟩
  intro r hr hne
  exact claimsPath_eq_false.mp (h (.twin r.key.mediaType)) r hr rfl hne

-- The path of a row is not protected by what the row itself says.
theorem Protection.holds_modify (db : Db) (key : RowKey) (f : Row → Row)
    (hf : ∀ r, (f r).key = r.key) (path : Path) (p : Protection) :
    p.holds (db.modify key f hf) key path = p.holds db key path := by
  cases p with
  | pin | watchlist | coverage => rfl
  | twin mediaType =>
    simp only [Protection.holds, Db.claimsPath, Db.modify, Table.modify, List.any_map]
    refine congrArg (List.any db.rows.rows) (funext fun r => ?_)
    by_cases hkey : r.key = key
    · simp [hkey, hf]
    · simp [hkey]

/-! ### The findings of an eviction -/

/-- What was looked for and not found, from when it was looked for until the
    marker is armed. -/
def EvictPc.excluded : EvictPc → List Protection
  | .twins _ false => [.pin, .watchlist]
  | .twins mediaType true => [.pin, .watchlist, .twin mediaType.other]
  | .coverage => [.pin, .watchlist, .twin .movie, .twin .tv]
  | .purging (.deleting _ _) => []
  | .purging _ | .arm => [.pin, .watchlist, .twin .movie, .twin .tv, .coverage]
  | _ => []

/-- The findings still hold, and what was armed was not protected. -/
structure Unexposed (db : Db) (key : RowKey) (path : Path) (pc : EvictPc) : Prop where
  excluded : ∀ p ∈ pc.excluded, p.holds db key path = false
  armed : ∀ rows, pc = .armed rows → Unprotected rows key path

theorem Unexposed.of_nil (hnil : pc.excluded = [])
    (harmed : ∀ rows, pc ≠ .armed rows) : Unexposed db key path pc :=
  ⟨fun p hp => absurd hp (by simp [hnil]), fun rows h => absurd h (harmed rows)⟩

theorem unpinned_of_claim {db' : Db} (h : db.claimForEviction key = (true, db')) :
    db'.pinned key = false ∧ db'.watchlisted key = false := by
  unfold Db.claimForEviction at h
  split at h
  · simp at h
  rename_i hfree
  have hboth : db.pinned key = false ∧ db.watchlisted key = false := by simpa using hfree
  unfold Db.setStatusIfIn at h
  split at h
  · split at h
    · obtain rfl := (Prod.mk.inj h).2
      exact hboth
    · simp at h
  · simp at h

theorem armed_ne_ofPurge (st : PurgeStep) (rows : Db) : EvictPc.ofPurge st ≠ .armed rows := by
  cases st with
  | outcome o => cases o <;> simp [EvictPc.ofPurge]
  | _ => simp [EvictPc.ofPurge]

theorem Unexposed.purged {pc : PurgePc} {st : PurgeStep} (h : Unexposed s.db key path (.purging pc))
    (heff : PurgeEffect s path pc s' st) : Unexposed s'.db key path (EvictPc.ofPurge st) := by
  cases heff with
  | entered | guarded | measured | admitted => exact ⟨h.excluded,
    fun rows => by simp [EvictPc.ofPurge]⟩
  | failed r =>
    refine Unexposed.of_nil ?_ (armed_ne_ofPurge _)
    cases r <;> rfl
  | _ => exact Unexposed.of_nil rfl (armed_ne_ofPurge _)

theorem Unexposed.found {q : Protection} (h : Unexposed db key path pc)
    (hq : q.holds db key path = false) (hmore : ∀ p ∈ pc'.excluded, p = q ∨ p ∈ pc.excluded)
    (harmed : ∀ rows, pc' ≠ .armed rows) : Unexposed db key path pc' := by
  refine ⟨fun p hp => ?_, fun rows h => absurd h (harmed rows)⟩
  rcases hmore p hp with rfl | hp
  · exact hq
  · exact h.excluded p hp

theorem Unexposed.next {lease : Option Nat} (h : Unexposed s.db key path pc)
    (heff : EvictEffect s lease key path pc s' pc') : Unexposed s'.db key path pc' := by
  cases heff with
  | claimed db hcl =>
    refine ⟨fun p hp => ?_, fun rows => by simp⟩
    simp only [EvictPc.excluded, List.mem_cons, List.not_mem_nil, or_false] at hp
    rcases hp with rfl | rfl
    · exact (unpinned_of_claim hcl).1
    · exact (unpinned_of_claim hcl).2
  | noTwin m hnone | noTwins m hnone =>
    refine h.found (q := .twin m) hnone ?_ fun _ => by simp
    cases m <;> simp [EvictPc.excluded, MediaType.other]
  | uncovered hnone =>
    refine h.found (q := .coverage) hnone ?_ fun _ => by simp
    simp [EvictPc.excluded]
  | purged pc s' st hpurge => exact h.purged hpurge
  | armed =>
    refine ⟨fun p hp => absurd hp nofun, fun rows hrows => ?_⟩
    obtain rfl := EvictPc.armed.inj hrows
    refine unprotected_of_all fun p => ?_
    rw [Db.armPartialDelete, Protection.holds_modify]
    refine h.excluded p ?_
    cases p with
    | twin m => cases m <;> simp [EvictPc.excluded]
    | _ => simp [EvictPc.excluded]
  | stood rows => exact h
  | _ => exact Unexposed.of_nil rfl fun _ => by simp

/-! ### Runs -/

/-- Something was looked for, for a row and its path, and not found. -/
structure Finding where
  key : RowKey
  path : Path
  protection : Protection
  deriving DecidableEq, Repr

def Finding.stands (db : Db) (f : Finding) : Prop := f.protection.holds db f.key f.path = false

instance (db : Db) (f : Finding) : Decidable (f.stands db) :=
  inferInstanceAs (Decidable (_ = false))

def Caller.findings : Caller → List Finding
  | .sweep _ (.evicting _ key path pc _ _) => pc.excluded.map fun p => ⟨key, path, p⟩
  | _ => []

def Action.turn : Action → Option Nat
  | .act i _ => some i
  | _ => none

/-- Nobody protects what somebody else has found unprotected and acts on. -/
def Undisturbed (w : World) (a : Action) : Prop :=
  ∀ i < w.actors.length, a.turn ≠ some i →
    ∀ f ∈ (w.actors[i]?).elim [] Caller.findings, f.stands w.shared.db →
      ∀ w' ∈ step w a, f.stands w'.shared.db

instance (w : World) (a : Action) : Decidable (Undisturbed w a) :=
  inferInstanceAs (Decidable (∀ i < w.actors.length, _ → ∀ f ∈ _, _ → ∀ w' ∈ step w a, _))

def Findings (db : Db) : Caller → Prop
  | .sweep _ (.evicting _ key path pc _ _) => Unexposed db key path pc
  | _ => True

theorem Findings.stands (h : Findings db a) : ∀ f ∈ a.findings, f.stands db := by
  intro f hf
  unfold Caller.findings at hf
  split at hf
  · rcases List.mem_map.mp hf with ⟨p, hp, rfl⟩
    exact h.excluded p hp
  · simp at hf

theorem Findings.of_stands {db' : Db} (h : Findings db a)
    (hkept : ∀ f ∈ a.findings, f.stands db') : Findings db' a := by
  unfold Findings at h ⊢
  split at h
  · rename_i run key path pc rest pool
    exact ⟨fun p hp => hkept ⟨key, path, p⟩ (List.mem_map_of_mem hp), h.armed⟩
  · trivial

theorem Findings.of_outside {pc : SweepPc}
    (h : pc.inside = false) : Findings db (.sweep args pc) := by
  cases pc with
  | evicting => simp [SweepPc.inside] at h
  | _ => trivial

theorem Findings.next (c : Choice) (h : Findings s.db a) :
    Findings (a.next c s).1.db (a.next c s).2 := by
  cases a with
  | correction key pc | importer key path pc => trivial
  | sweep args pc =>
    have heff := sweepNext_effect c s args pc
    simp only [Caller.next]
    revert heff
    generalize (sweepNext c s args pc).1 = s', (sweepNext c s args pc).2 = pc'
    intro heff
    cases heff with
    | outside _ _ _ hs hpc hpc' =>
      cases hpc' with
      | outside _ hout => exact Findings.of_outside hout
      | recovering => trivial
      | evicting => exact Unexposed.of_nil rfl fun _ => by simp
    | recovering run r rest pc s'' pc'' hcall =>
      rcases SweepPc.afterRecovery_cases s'' run r rest pc'' with
        ⟨-, ⟨fate, -, hout⟩ | ⟨removed, -, heq⟩ | heq⟩
      · exact Findings.of_outside hout
      · rw [heq]
        trivial
      · rw [heq]
        trivial
    | evicting run key path rest pool pc s'' pc'' hcall =>
      have hnext := Unexposed.next h hcall
      rcases SweepPc.afterEviction_cases s'' run key path rest pool pc'' with
        ⟨-, ⟨fate, -, hout⟩ | ⟨removed, -, heq⟩ | heq⟩
      · exact Findings.of_outside hout
      · rw [heq]
        trivial
      · rw [heq]
        exact hnext
    | orphaned key path _ alive hcall => cases alive <;> trivial

/-- The findings of every eviction stand. -/
def World.Unexposed (w : World) : Prop :=
  ∀ (i : Nat) (a : Caller), w.actors[i]? = some a → Findings w.shared.db a

theorem World.Unexposed.step {w' : World} {a : Action} (h : w.Unexposed) (hcond : Undisturbed w a)
    (hstep : step w a = some w') : w'.Unexposed := by
  -- Those whose turn it is not rely on what the step leaves alone.
  have hoth : ∀ (j : Nat) (b : Caller), a.turn ≠ some j → w.actors[j]? = some b →
      Findings w'.shared.db b := by
    intro j b hne hj
    have hlt : j < w.actors.length := (List.getElem?_eq_some_iff.mp hj).1
    refine (h j b hj).of_stands fun f hf => ?_
    refine hcond j hlt hne f ?_ ((h j b hj).stands f hf) w' hstep
    rw [hj]
    exact hf
  have hspn : ∀ b : Caller, Findings w.shared.db b → w' = w.spawn b → a.turn = none →
      w'.Unexposed := by
    intro b hb heq hturn j x hj
    rw [heq, World.spawn, List.getElem?_append] at hj
    split at hj
    · exact hoth j x (by simp [hturn]) hj
    obtain rfl : b = x := by
      rw [List.getElem?_singleton] at hj
      split at hj
      · exact Option.some.inj hj
      · simp at hj
    rw [heq]
    exact hb
  cases a with
  | sweep args => exact hspn (.sweep args .start) trivial (Option.some.inj hstep).symm rfl
  | report key => exact hspn (.correction key .check) trivial (Option.some.inj hstep).symm rfl
  | importInto key path =>
    exact hspn (.importer key path .entering) trivial (Option.some.inj hstep).symm rfl
  | act i c =>
    simp only [Eviction.step, World.act] at hstep
    split at hstep
    · simp at hstep
    rename_i a hat
    cases hstep
    intro j b hj
    by_cases hji : j = i
    · subst hji
      obtain rfl : (a.next c w.shared).2 = b := by
        rw [List.getElem?_set_self (List.getElem?_eq_some_iff.mp hat).1] at hj
        exact Option.some.inj hj
      exact (h j a hat).next c
    · rw [List.getElem?_set_ne (Ne.symm hji)] at hj
      exact hoth j b (by simpa [Action.turn] using Ne.symm hji) hj
  | other v | vanish path =>
    cases hstep
    exact fun j b hj => hoth j b (by simp [Action.turn]) hj
  | crash =>
    cases hstep
    exact fun j b hj => by cases hj

theorem unexposed_of_run {trees : List Path} {as : List Action}
    (hrun : run step (World.idle db trees) as = some w)
    (hmeet : StepsMeet step Undisturbed (World.idle db trees) as) : w.Unexposed := by
  refine invariant_of_meeting_run (fun _ _ _ h hcond hstep => h.step hcond hstep)
    (World.idle db trees) w as ?_ hmeet hrun
  exact fun j b hj => absurd hj nofun

theorem armed_of_starts {lease : Option Nat} {r c : Bool}
    (h : EvictEffect s lease key path pc s' (.purging (.deleting r c)))
    (hidle : ∀ r c, pc ≠ .purging (.deleting r c)) : ∃ rows, pc = .armed rows := by
  revert h
  generalize hnext : EvictPc.purging (.deleting r c) = pc'
  intro h
  cases h with
  | started rows => exact ⟨rows, rfl⟩
  | purged pc s' st hpurge =>
    cases hpurge with
    | removed r c | waited r c => exact absurd rfl (hidle r c)
    | failed r => cases r <;> simp [EvictPc.ofPurge] at hnext
    | _ => simp [EvictPc.ofPurge] at hnext
  | _ => simp at hnext

theorem evictEffect_of_act {w' : World} {i : Nat} {c : Choice} {args' : SweepArgs}
    {run run' : SweepRun} {key' : RowKey} {path' : Path} {rest rest' : Option (List Candidate)}
    {pool pool' : List Candidate} (hstep : step w (.act i c) = some w')
    (hat : w.actors[i]? = some (.sweep args (.evicting run key path pc rest pool)))
    (hat' : w'.actors[i]? = some (.sweep args' (.evicting run' key' path' pc' rest' pool'))) :
    EvictEffect w.shared run.lease key path pc w'.shared pc' := by
  have hlen := (List.getElem?_eq_some_iff.mp hat).1
  have heff := evictNext_effect c.turn w.shared run.lease key path pc
  simp only [step, World.act, hat, Option.some.injEq] at hstep
  subst hstep
  simp only [Caller.next, sweepNext] at hat' ⊢
  rw [List.getElem?_set_self hlen] at hat'
  revert heff hat'
  generalize (evictNext c.turn w.shared run.lease key path pc).1 = s'
  generalize (evictNext c.turn w.shared run.lease key path pc).2 = pc''
  intro heff hat'
  have hpc := (Caller.sweep.inj (Option.some.inj hat')).2
  rcases SweepPc.afterEviction_cases s' run key path rest pool pc'' with
    ⟨-, ⟨fate, -, hout⟩ | ⟨removed, -, heq⟩ | heq⟩
  · rw [hpc] at hout
    simp [SweepPc.inside] at hout
  · rw [hpc] at heq
    simp at heq
  · rw [heq] at hpc ⊢
    obtain rfl : pc'' = pc' := (SweepPc.evicting.inj hpc).2.2.2.1
    exact heff

/-- A step with which an eviction of a row, up to there at `pc`, starts a thread
    that deletes. -/
structure StartsDelete (w : World) (i : Nat) (c : Choice) (key : RowKey) (path : Path)
    (pc : EvictPc) : Prop where
  idle : ∀ r c, pc ≠ .purging (.deleting r c)
  before : ∃ args run rest pool,
    w.actors[i]? = some (.sweep args (.evicting run key path pc rest pool))
  after : ∃ w', step w (.act i c) = some w' ∧ ∃ args run key path r c rest pool,
    w'.actors[i]? = some (.sweep args (.evicting run key path (.purging (.deleting r c)) rest pool))

/-- Whenever an eviction starts a thread in an undisturbed run, its marker is
    armed, and nobody protected the row when it was. -/
theorem deletes_unprotected {db : Db} {trees : List Path} {as : List Action} {w : World} {i : Nat}
    {c : Choice} {key : RowKey} {path : Path} {pc : EvictPc}
    (hrun : run step (World.idle db trees) as = some w)
    (hmeet : StepsMeet step Undisturbed (World.idle db trees) as)
    (hstarts : StartsDelete w i c key path pc) :
    ∃ rows, pc = .armed rows ∧ Unprotected rows key path := by
  rcases hstarts.before with ⟨args, run, rest, pool, hat⟩
  rcases hstarts.after with ⟨w', hstep, args', run', key', path', r, c, rest', pool', hat'⟩
  rcases armed_of_starts (evictEffect_of_act hstep hat hat') hstarts.idle with ⟨rows, rfl⟩
  exact ⟨rows, rfl, Unexposed.armed (unexposed_of_run hrun hmeet i _ hat) rows rfl⟩

/-! ### A pin that comes late -/

def watchedMovie : Row :=
  { key := .movie 1
    status := .available
    libraryPath := some "/movies/Film (1999)" }

/-- One movie that nobody protects. -/
def unprotectedLibrary : Db where
  rows := ⟨[watchedMovie], by decide⟩
  tmdbId := fun id => 10 * id
  keepForever := []
  watchlist := []
  downloads := ⟨[], Downloads.slots_nil, Downloads.seasonal_nil, Downloads.claimed_nil⟩
  history := []

def unprotectedWorld : World := World.idle unprotectedLibrary ["/movies/Film (1999)"]

def movieSweep : SweepArgs where
  mediaType := .movie
  ownsPath := fun _ => true

def evictsUpToPermit : List Action :=
  .sweep movieSweep :: List.replicate 14 (.act 0 {}) ++ .act 0 { selected := [.movie 1] } ::
    List.replicate 15 (.act 0 {})

def armsMarker : List Action := [.act 0 {}, .act 0 {}]

/-- Whether the first actor starts a thread, and whether the title was pinned
    when its marker was armed. -/
def startsPinned (w w' : World) : Option Bool :=
  match (w.actors[0]? : Option Caller), (w'.actors[0]? : Option Caller) with
  | some (.sweep _ (.evicting _ key _ (.armed rows) _ _)),
    some (.sweep _ (.evicting _ _ _ (.purging (.deleting _ _)) _ _)) => some (rows.pinned key)
  | _, _ => none

theorem exists_start (as : List Action) (pinned : Bool)
    (h : ((run step unprotectedWorld as).bind fun w =>
      (step w (.act 0 {})).bind (startsPinned w)) = some pinned) :
    ∃ w key path rows, run step unprotectedWorld as = some w ∧
      StartsDelete w 0 {} key path (.armed rows) ∧ rows.pinned key = pinned := by
  rcases Option.bind_eq_some_iff.mp h with ⟨w, hw, hrest⟩
  rcases Option.bind_eq_some_iff.mp hrest with ⟨w', hw', hpin⟩
  unfold startsPinned at hpin
  split at hpin
  · rename_i hat hat'
    refine ⟨w, _, _, _, hw, ⟨fun _ _ => by simp, ⟨_, _, _, _, hat⟩, ?_⟩, Option.some.inj hpin⟩
    exact ⟨w', hw', _, _, _, _, _, _, _, _, hat'⟩
  · simp at hpin

/-- A movie is pinned while its eviction waits for the permit. The marker is
    armed and the thread started all the same. -/
theorem deletes_pinned :
    ∃ w key path rows, run step unprotectedWorld
        (evictsUpToPermit ++ .other (.setKeepForever 1 true) :: armsMarker) = some w ∧
      StartsDelete w 0 {} key path (.armed rows) ∧ ¬ Unprotected rows key path := by
  rcases exists_start (evictsUpToPermit ++ .other (.setKeepForever 1 true) :: armsMarker) true
    (by decide +kernel) with ⟨w, key, path, rows, hw, hbeg, hpin⟩
  refine ⟨w, key, path, rows, hw, hbeg, fun h => ?_⟩
  rw [h.unpinned] at hpin
  simp at hpin

/-- Without the pin nobody protects the movie. -/
theorem deletes_unprotected_undisturbed :
    ∃ w key path rows, run step unprotectedWorld (evictsUpToPermit ++ armsMarker) = some w ∧
      StartsDelete w 0 {} key path (.armed rows) ∧ Unprotected rows key path := by
  rcases exists_start (evictsUpToPermit ++ armsMarker) false (by decide +kernel) with
    ⟨w, key, path, rows, hw, hbeg, -⟩
  rcases deletes_unprotected hw (by decide +kernel) hbeg with ⟨rows', hpc, hrows⟩
  obtain rfl := EvictPc.armed.inj hpc
  exact ⟨w, key, path, rows, hw, hbeg, hrows⟩

end Eviction

end PlexManager
