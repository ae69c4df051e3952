import PlexManager.Core.Availability
import PlexManager.Lib.Transition

/-!
# No promotion on a stale answer

A cycle promotes a row on an answer that Plex gave after the row was completed
for the last time. Every completion counts, nothing else does, and a promotion
asks for the count that was read. So where it succeeds, nobody has completed the
row since the cycle read it, and Plex was asked after that. Where it is refused,
nothing has changed.

The row may still have been opened for another search in between, and taken back
to `available` by the recovery of an eviction that found the files untouched. It
stands on the same completion then, and the promotion changes no status.

## Theorems

* `promotion_is_current`: A promotion is on the completion that was read.
* `promotion_after_rearm`: A row that was opened again may be promoted.
-/

namespace PlexManager

namespace Availability

open KeyedTable Interleaving Transition
open Seasons (SeasonRequest)

/-! ### Rows -/

/-- The status of a row and the count of its completions. -/
structure Standing where
  status : RequestStatus
  generation : Option Nat
  deriving DecidableEq, Repr

def Movie.standing (m : Movie) : Standing := ⟨m.status, m.completionGeneration⟩

def seasonStanding (row : SeasonRequest) : Standing := ⟨row.status, row.completionGeneration⟩

def Db.standing (db : Db) : RowKey → Option Standing
  | .movie id => (db.movies.find id).map Movie.standing
  | .season id n => (db.seasons.find (id, n)).map seasonStanding

/-- What a commit may do to a row that completes it, opens it, takes it back to
    `available`, or does none of these. -/
structure Moved (completes rearms restores : Bool) (st st' : Standing) : Prop where
  completed : completes = true → st'.generation = some (st.generation.getD 0 + 1)
  kept : completes = false → st'.generation = st.generation
  opened : rearms = true → st'.status ∉ realDoneStatuses
  done : completes = false → restores = false → st'.status ∈ realDoneStatuses →
    st.status ∈ realDoneStatuses

theorem Moved.refl {restores : Bool} (st : Standing) : Moved false false restores st st :=
  ⟨nofun, fun _ => rfl, nofun, fun _ _ h => h⟩

def Commit.completes (key : RowKey) : Commit → Bool
  | .other v => v.completes key
  | .promotion _ => false

def Commit.rearms (key : RowKey) : Commit → Bool
  | .other v => v.rearms key
  | .promotion _ => false

def Commit.restores (key : RowKey) : Commit → Bool
  | .other v => v.restores key
  | .promotion _ => false

/-- What a commit may do to the rows. None of them goes away. -/
def Effect (c : Commit) (db db' : Db) : Prop :=
  ∀ key st, db.standing key = some st →
    ∃ st', db'.standing key = some st' ∧
      Moved (c.completes key) (c.rearms key) (c.restores key) st st'

variable {db db' : Db} {now n : Int} {id : Nat} {st : Standing} {expected : Option Nat} {s : Shared}
  {c : Commit} {key : RowKey} {pc : CyclePc} {row : SeasonRequest} {item : Item}

theorem standing_recomputeParent {stamp : Bool} (h : db.recomputeParent now id stamp = some db')
    (key : RowKey) : db'.standing key = db.standing key := by
  unfold Db.recomputeParent at h
  dsimp only at h
  split at h
  · rw [← Option.some.inj h]
  · rcases Option.map_eq_some_iff.mp h with ⟨status, -, rfl⟩
    cases key with
    | movie id | season id n => rfl

theorem standing_modify_movie (db : Db) (id : Nat) (f : Movie → Movie) (hf : ∀ m, (f m).id = m.id)
    (h : db.standing key = some st) :
    ∃ st', Db.standing { db with movies := db.movies.modify id f hf } key = some st' ∧
      ((key ≠ .movie id ∧ st' = st) ∨
        (key = .movie id ∧ ∃ m, db.movies.find id = some m ∧ st = m.standing ∧
          st' = (f m).standing)) := by
  cases key with
  | season k n => exact ⟨st, h, .inl ⟨by simp, rfl⟩⟩
  | movie k =>
    rcases Option.map_eq_some_iff.mp h with ⟨m, hm, rfl⟩
    by_cases hk : k = id
    · subst hk
      simp [Db.standing, Table.find_modify, hm]
    · refine ⟨m.standing, ?_, .inl ⟨by simpa using hk, rfl⟩⟩
      simp [Db.standing, Table.find_modify, hm, hk]

theorem standing_modify_season (db : Db) (id : Nat) (n : Int) (f : SeasonRequest → SeasonRequest)
    (hf : ∀ row, (f row).key = row.key) (h : db.standing key = some st) :
    ∃ st', Db.standing { db with seasons := db.seasons.modify (id, n) f hf } key = some st' ∧
      ((key ≠ .season id n ∧ st' = st) ∨
        (key = .season id n ∧ ∃ row, db.seasons.find (id, n) = some row ∧
          st = seasonStanding row ∧ st' = seasonStanding (f row))) := by
  cases key with
  | movie k => exact ⟨st, h, .inl ⟨by simp, rfl⟩⟩
  | season k m =>
    rcases Option.map_eq_some_iff.mp h with ⟨row, hrow, rfl⟩
    by_cases hk : (k, m) = (id, n)
    · cases hk
      simp [Db.standing, Table.find_modify, hrow]
    · refine ⟨seasonStanding row, ?_, .inl ⟨?_, rfl⟩⟩
      · simp only [Db.standing, Table.find_modify, hrow, hk, if_false, Option.map_some]
      · simpa using hk

/-! ### What the others do -/

theorem effect_onMovie {p : Movie → Bool} {f : Movie → Movie} {hf : ∀ m, (f m).id = m.id}
    (h : db.onMovie id p f hf = some db')
    (hoth : ∀ key, key ≠ .movie id → c.completes key = false ∧ c.rearms key = false)
    (hown : ∀ m, p m = true →
      Moved (c.completes (.movie id)) (c.rearms (.movie id)) (c.restores (.movie id)) m.standing
        (f m).standing) :
    Effect c db db' := by
  unfold Db.onMovie at h
  split at h
  · simp at h
  rename_i m hm
  split at h
  · rename_i hp
    intro key st hst
    cases h
    rcases standing_modify_movie db id f hf hst with ⟨st', hst', hcas⟩
    refine ⟨st', hst', ?_⟩
    rcases hcas with ⟨hne, rfl⟩ | ⟨rfl, m', hm', rfl, rfl⟩
    · rw [(hoth key hne).1, (hoth key hne).2]
      exact Moved.refl st'
    · obtain rfl : m = m' := Option.some.inj (hm.symm.trans hm')
      exact hown m hp
  · simp at h

theorem effect_onSeason {stamp : Bool} {p : SeasonRequest → Bool}
    {f : SeasonRequest → SeasonRequest} {hf : ∀ row, (f row).key = row.key}
    (h : db.onSeason now id n stamp p f hf = some db')
    (hoth : ∀ key, key ≠ .season id n → c.completes key = false ∧ c.rearms key = false)
    (hown : ∀ row, p row = true →
      Moved (c.completes (.season id n)) (c.rearms (.season id n)) (c.restores (.season id n))
        (seasonStanding row) (seasonStanding (f row))) :
    Effect c db db' := by
  unfold Db.onSeason at h
  split at h
  · simp at h
  rename_i row hrow
  split at h
  · rename_i hp
    intro key st hst
    rcases standing_modify_season db id n f hf hst with ⟨st', hst', hcas⟩
    refine ⟨st', (standing_recomputeParent h key).trans hst', ?_⟩
    rcases hcas with ⟨hne, rfl⟩ | ⟨rfl, row', hrow', rfl, rfl⟩
    · rw [(hoth key hne).1, (hoth key hne).2]
      exact Moved.refl st'
    · obtain rfl : row = row' := Option.some.inj (hrow.symm.trans hrow')
      exact hown row hp
  · simp at h

@[simp] theorem generation_moved (now : Int) {status : RequestStatus} (h : status ≠ .completed)
    (row : SeasonRequest) : (row.moved now status).completionGeneration =
      row.completionGeneration := by
  cases status <;> first | rfl | exact absurd rfl h

theorem moved_of_move {status : RequestStatus} (h : status ∉ realDoneStatuses)
    (rearms restores : Bool) (row : SeasonRequest) :
    Moved false rearms restores (seasonStanding row) (seasonStanding (row.moved now status)) := by
  have hne : status ≠ .completed := by
    intro heq
    exact h (by simp [heq, realDoneStatuses])
  refine ⟨nofun, fun _ => generation_moved now hne row, fun _ => ?_, ?_⟩
  · simpa [seasonStanding] using h
  · intro _ _ hdone
    exact absurd (by simpa [seasonStanding] using hdone) h

theorem moved_of_restore (now : Int) (row : SeasonRequest) :
    Moved false false true (seasonStanding row) (seasonStanding (row.moved now .available)) :=
  ⟨nofun, fun _ => rfl, nofun,
    fun _ h => absurd h nofun⟩

theorem moved_of_completion (now : Int) {rearms restores : Bool} (hrearms : rearms = false)
    (row : SeasonRequest) :
    Moved true rearms restores (seasonStanding row) (seasonStanding (row.moved now .completed)) :=
  ⟨fun _ => rfl, nofun, fun h => absurd (hrearms.symm.trans h) nofun,
    nofun⟩

theorem effect_requestSeason {present : Bool} (h : db.requestSeason now id n present = some db') :
    Effect (.other (.requestSeason id n present)) db db' := by
  unfold Db.requestSeason at h
  dsimp only at h
  split at h
  · rename_i hnone
    intro key st hst
    refine ⟨st, (standing_recomputeParent h key).trans ?_, Moved.refl st⟩
    cases key with
    | movie k => exact hst
    | season k m =>
      rcases Option.map_eq_some_iff.mp hst with ⟨row, hrow, rfl⟩
      simp [Db.standing, Table.find_insert, hrow]
  · refine effect_onSeason h (fun key hne => ⟨rfl, rfl⟩) fun row _ => ?_
    cases present with
    | false => exact moved_of_move (by decide) false _ row
    | true =>
      have hrst : (Commit.other (.requestSeason id n true)).restores (.season id n) = true :=
        by simp [Commit.restores, Verb.restores]
      rw [hrst]
      exact moved_of_restore now row

theorem Verb.effect {v : Verb} (h : v.apply now db = some db') : Effect (.other v) db db' := by
  cases v with
  | importMovie id path =>
    refine effect_onMovie h ?_ fun m _ => ?_
    · intro key hne
      exact ⟨by simpa [Commit.completes, Verb.completes] using hne, rfl⟩
    · have hcmp : (Commit.other (.importMovie id path)).completes (.movie id) = true := by
        simp [Commit.completes, Verb.completes]
      rw [hcmp]
      exact ⟨fun _ => rfl, nofun, fun h => absurd h (by
        simp [Commit.rearms, Verb.rearms]), nofun⟩
  | reportMovie id clear =>
    refine effect_onMovie h ?_ fun m _ => ?_
    · intro key hne
      exact ⟨rfl, by simpa [Commit.rearms, Verb.rearms] using hne⟩
    · refine ⟨fun h => absurd h nofun, fun _ => rfl,
        fun _ => ?_, fun _ _ hdone => ?_⟩
      -- A report opens the row for a search, which is no status of content.
      · show RequestStatus.searching ∉ realDoneStatuses
        decide
      · exact absurd hdone (by show RequestStatus.searching ∉ realDoneStatuses; decide)
  | restoreMovie id =>
    refine effect_onMovie h (fun key hne => ⟨rfl, rfl⟩) fun m _ => ?_
    refine ⟨fun h => absurd h nofun, fun _ => rfl,
      fun h => absurd h nofun, fun _ hrst _ => ?_⟩
    simp [Commit.restores, Verb.restores] at hrst
  | moveMovie id status =>
    refine effect_onMovie h (fun key hne => ⟨rfl, rfl⟩) fun m hp => ?_
    have hout : status ∉ realDoneStatuses := by simpa using hp
    exact ⟨fun h => absurd h nofun, fun _ => rfl,
      fun _ => hout, fun _ _ hdone => absurd hdone hout⟩
  | createMovie m =>
    intro key st hst
    refine ⟨st, ?_, Moved.refl st⟩
    cases h
    cases key with
    | season k n => exact hst
    | movie k =>
      rcases Option.map_eq_some_iff.mp hst with ⟨row, hrow, rfl⟩
      simp [Db.standing, Table.find_insert, hrow]
  | createShow id tmdbId =>
    intro key st hst
    refine ⟨st, ?_, Moved.refl st⟩
    cases h
    cases key with
    | season k n | movie k => exact hst
  | importSeason id n path =>
    refine effect_onSeason h ?_ fun row _ => ?_
    · intro key hne
      exact ⟨by simpa [Commit.completes, Verb.completes] using hne, rfl⟩
    · have hcmp :
          (Commit.other (.importSeason id n path)).completes (.season id n) = true := by
        simp [Commit.completes, Verb.completes]
      rw [hcmp]
      exact moved_of_completion now rfl (row.placed (some path))
  | fallbackSeason id n =>
    refine effect_onSeason h ?_ fun row _ => ?_
    · intro key hne
      exact ⟨by simpa [Commit.completes, Verb.completes] using hne, rfl⟩
    · have hcmp : (Commit.other (.fallbackSeason id n)).completes (.season id n) = true := by
        simp [Commit.completes, Verb.completes]
      rw [hcmp]
      exact moved_of_completion now rfl row
  | reportSeason id n clear =>
    refine effect_onSeason h ?_ fun row _ => ?_
    · intro key hne
      exact ⟨rfl, by simpa [Commit.rearms, Verb.rearms] using hne⟩
    · exact @moved_of_move now .searching (by decide) _ _ row
  | restoreSeason id n =>
    refine effect_onSeason h (fun key hne => ⟨rfl, rfl⟩) fun row _ => ?_
    have hrst : (Commit.other (.restoreSeason id n)).restores (.season id n) = true := by
      simp [Commit.restores, Verb.restores]
    rw [hrst]
    exact moved_of_restore now row
  | requestSeason id n present => exact effect_requestSeason h
  | moveSeason id n status =>
    refine effect_onSeason h (fun key hne => ⟨rfl, rfl⟩) fun row hp => ?_
    exact moved_of_move (by simpa using hp) _ _ row

/-! ### The promotion -/

theorem promoteMovie_effect (h : db.promoteMovie now id expected = (true, db')) :
    ∃ st, db.standing (.movie id) = some st ∧ st.status ∈ realDoneStatuses ∧
      st.generation = expected ∧ Effect (.promotion (.movie id)) db db' := by
  unfold Db.promoteMovie at h
  split at h
  · simp at h
  rename_i m hm
  split at h
  · rename_i hswap
    obtain rfl := (Prod.mk.inj h).2
    refine ⟨m.standing, by simp [Db.standing, hm], hswap.1, hswap.2, ?_⟩
    intro key st hst
    rcases standing_modify_movie db id (·.available now) (Movie.id_available now) hst with
      ⟨st', hst', hcas⟩
    refine ⟨st', hst', ?_⟩
    rcases hcas with ⟨-, rfl⟩ | ⟨rfl, m', hm', rfl, rfl⟩
    · exact Moved.refl st'
    · obtain rfl : m = m' := Option.some.inj (hm.symm.trans hm')
      exact ⟨fun h => absurd h nofun, fun _ => rfl,
        fun h => absurd h nofun, fun _ _ _ => hswap.1⟩
  · simp at h

theorem promoteMovie_refused (h : db.promoteMovie now id expected = (false, db')) : db' = db := by
  unfold Db.promoteMovie at h
  split at h
  · exact (Prod.mk.inj h).2.symm
  · split at h
    · simp at h
    exact (Prod.mk.inj h).2.symm

section

variable (hrow : db.seasons.find (id, n) = some row)
include hrow

theorem insert_tracked :
    db.seasons.insert { mediaRequestId := id, seasonNumber := n, status := .pending } =
      db.seasons :=
  Table.find_insert_of_some hrow

theorem promoteSeason_effect (h : db.promoteSeason now id n expected = some (true, db')) :
    row.status ∈ realDoneStatuses ∧ row.completionGeneration = expected ∧
      Effect (.promotion (.season id n)) db db' := by
  unfold Db.promoteSeason at h
  simp only [insert_tracked hrow, hrow] at h
  split at h
  · rename_i hswap
    refine ⟨hswap.1, hswap.2, ?_⟩
    rcases Option.map_eq_some_iff.mp h with ⟨db'', hpar, heq⟩
    obtain rfl : db'' = db' := (Prod.mk.inj heq).2
    intro key st hst
    rcases standing_modify_season db id n seasonAvailable key_seasonAvailable hst with
      ⟨st', hst', hcas⟩
    refine ⟨st', (standing_recomputeParent hpar key).trans hst', ?_⟩
    rcases hcas with ⟨-, rfl⟩ | ⟨rfl, row', hrow', rfl, rfl⟩
    · exact Moved.refl st'
    · obtain rfl : row = row' := Option.some.inj (hrow.symm.trans hrow')
      exact ⟨fun h => absurd h nofun, fun _ => rfl,
        fun h => absurd h nofun, fun _ _ _ => hswap.1⟩
  · simp at h

theorem promoteSeason_refused
    (h : db.promoteSeason now id n expected = some (false, db')) : db' = db := by
  unfold Db.promoteSeason at h
  simp only [insert_tracked hrow, hrow] at h
  split at h
  · rcases Option.map_eq_some_iff.mp h with ⟨db'', -, heq⟩
    exact absurd (Prod.mk.inj heq).1 nofun
  · exact (Prod.mk.inj (Option.some.inj h)).2.symm

end

theorem promote_effect (hst : db.standing key = some st)
    (h : db.promote now expected key = some (true, db')) :
    st.status ∈ realDoneStatuses ∧ st.generation = expected ∧ Effect (.promotion key) db db' := by
  cases key with
  | movie id =>
    rcases promoteMovie_effect (Option.some.inj h) with ⟨st', hst', hrest⟩
    obtain rfl : st' = st := Option.some.inj (hst'.symm.trans hst)
    exact hrest
  | season id n =>
    rcases Option.map_eq_some_iff.mp hst with ⟨row, hrow, rfl⟩
    exact promoteSeason_effect hrow h

theorem promote_refused (hst : db.standing key = some st)
    (h : db.promote now expected key = some (false, db')) : db' = db := by
  cases key with
  | movie id => exact promoteMovie_refused (Option.some.inj h)
  | season id n =>
    rcases Option.map_eq_some_iff.mp hst with ⟨row, hrow, -⟩
    exact promoteSeason_refused hrow h

/-! ### What a cycle knows -/

/-- What can be said of a row that was read before some commits. -/
structure Since (item : Item) (post : List Commit) (st : Standing) : Prop where
  counted : (∀ c ∈ post, c.completes item.key = false) →
    st.generation = item.completionGeneration
  passed : (∃ c ∈ post, c.completes item.key = true) →
    item.completionGeneration.getD 0 < st.generation.getD 0
  reopened : ∀ pre c tail, post = pre ++ c :: tail → c.rearms item.key = true →
    (∀ d ∈ tail, d.completes item.key = false ∧ d.restores item.key = false) →
    st.status ∉ realDoneStatuses

theorem snoc_eq_split {α : Type} {l pre tail : List α} {a c : α} (h : l ++ [a] = pre ++ c :: tail) :
    (l = pre ∧ a = c ∧ tail = []) ∨ ∃ tail', tail = tail' ++ [a] ∧ l = pre ++ c :: tail' := by
  rcases List.eq_nil_or_concat tail with rfl | ⟨tail', b, rfl⟩
  · have hboth := List.append_inj' h rfl
    exact .inl ⟨hboth.1, List.cons.inj hboth.2 |>.1, rfl⟩
  · rw [List.concat_eq_append, ← List.cons_append, ← List.append_assoc] at h
    have hboth := List.append_inj' h rfl
    exact .inr ⟨tail', by rw [List.concat_eq_append, (List.cons.inj hboth.2).1], hboth.1⟩

theorem Since.commit {post : List Commit} {st' : Standing} (h : Since item post st)
    (hmov : Moved (c.completes item.key) (c.rearms item.key) (c.restores item.key) st st') :
    Since item (post ++ [c]) st' := by
  have hlast : c ∈ post ++ [c] := by simp
  refine ⟨fun hnone => ?_, ?_, ?_⟩
  · rw [hmov.kept (hnone c hlast)]
    exact h.counted fun d hd => hnone d (by simp [hd])
  · rintro ⟨d, hd, hcmp⟩
    cases hc : c.completes item.key with
    | true =>
      rw [hmov.completed hc]
      simp only [Option.getD_some]
      by_cases hbef : ∃ d ∈ post, d.completes item.key = true
      · have := h.passed hbef
        omega
      have hsame := h.counted fun d hd => by
        cases hcd : d.completes item.key with
        | false => rfl
        | true => exact absurd ⟨d, hd, hcd⟩ hbef
      rw [hsame]
      omega
    | false =>
      rw [hmov.kept hc]
      rcases List.mem_append.mp hd with hd | hd
      · exact h.passed ⟨d, hd, hcmp⟩
      · rw [List.mem_singleton.mp hd, hc] at hcmp
        simp at hcmp
  · intro pre d tail hspl hrearms hqt
    rcases snoc_eq_split hspl with ⟨-, rfl, -⟩ | ⟨tail', rfl, hpost⟩
    · exact hmov.opened hrearms
    · -- The row was closed before the last commit, which does not change that.
      have hbef := h.reopened pre d tail' hpost hrearms fun e he => hqt e (by simp [he])
      have hc := hqt c (by simp)
      exact fun hdone => hbef (hmov.done hc.1 hc.2 hdone)

/-- A cycle that read a row some commits ago knows this of it. -/
def Known (since : Nat) (s : Shared) (item : Item) : Prop :=
  ∃ st, s.db.standing item.key = some st ∧ Since item (s.log.drop since) st

structure Reading.Knows (r : Reading) (s : Shared) : Prop where
  since_le : r.since ≤ s.log.length
  items : ∀ item ∈ r.items, Known r.since s item

theorem Reading.Knows.commit {r : Reading} (h : r.Knows s)
    (heff : Effect c s.db db) : r.Knows ⟨db, s.log ++ [c]⟩ := by
  refine ⟨?_, fun item hitem => ?_⟩
  · have := h.since_le
    simp only [List.length_append, List.length_singleton]
    omega
  · rcases h.items item hitem with ⟨st, hst, hsince⟩
    rcases heff item.key st hst with ⟨st', hst', hmov⟩
    refine ⟨st', hst', ?_⟩
    rw [List.drop_append_of_le_length h.since_le]
    exact hsince.commit hmov

theorem standing_of_completed {kind : Kind} (h : item ∈ db.completed kind) :
    ∃ st, db.standing item.key = some st ∧ st.generation = item.completionGeneration := by
  cases kind with
  | movies =>
    rcases List.mem_map.mp h with ⟨m, hm, rfl⟩
    have hfind : db.movies.find m.id = some m :=
      Table.find_eq_some.mpr ⟨(List.mem_filter.mp hm).1, rfl⟩
    exact ⟨m.standing, by simp [Db.standing, Movie.item, hfind], rfl⟩
  | seasons =>
    rcases List.mem_flatMap.mp h with ⟨tmdbId, -, hitem⟩
    rcases List.mem_map.mp (List.mem_filter.mp hitem).1 with ⟨row, hrow, rfl⟩
    have hfind : db.seasons.find (row.mediaRequestId, row.seasonNumber) = some row :=
      Table.find_eq_some.mpr ⟨(List.mem_filter.mp hrow).1, rfl⟩
    exact ⟨seasonStanding row, by simp [Db.standing, seasonItem, hfind], rfl⟩

theorem knows_of_read (s : Shared) (kind : Kind) :
    Reading.Knows ⟨kind, s.db.completed kind, s.log.length⟩ s := by
  refine ⟨Nat.le_refl _, fun item hitem => ?_⟩
  rcases standing_of_completed hitem with ⟨st, hst, hgen⟩
  refine ⟨st, hst, ?_⟩
  refine ⟨fun _ => hgen, ?_, ?_⟩
  · rintro ⟨c, hc, -⟩
    simp at hc
  · intro pre c tail hspl
    simp at hspl

def Reading.Asked (r : Reading) (s : Shared) (asked : Nat) : Prop :=
  r.since ≤ asked ∧ asked ≤ s.log.length

def Knowledge (s : Shared) : CyclePc → Prop
  | .read _ => True
  | .ask r => r.Knows s
  | .awaiting r asked => r.Knows s ∧ r.Asked s asked
  | .askPaths r asked _ => r.Knows s ∧ r.Asked s asked
  | .awaitingPaths r asked _ askedPaths => r.Knows s ∧ r.Asked s asked ∧ r.Asked s askedPaths
  | .promote r rest => r.Knows s ∧ ∀ e ∈ rest, e.1 ∈ r.items ∧ r.Asked s e.2
  | .ended => True

theorem Knowledge.commit (heff : Effect c s.db db)
    (h : Knowledge s pc) : Knowledge ⟨db, s.log ++ [c]⟩ pc := by
  have hasked : ∀ {r : Reading} {asked : Nat}, r.Asked s asked →
      r.Asked ⟨db, s.log ++ [c]⟩ asked := by
    intro r asked ha
    exact ⟨ha.1, Nat.le_trans ha.2 (by simp)⟩
  cases pc with
  | read kind | ended => trivial
  | ask r => exact Reading.Knows.commit h heff
  | awaiting r asked | askPaths r asked answer => exact ⟨h.1.commit heff, hasked h.2⟩
  | awaitingPaths r asked answer askedPaths =>
    exact ⟨h.1.commit heff, hasked h.2.1, hasked h.2.2⟩
  | promote r rest =>
    exact ⟨h.1.commit heff, fun e he => ⟨(h.2 e he).1, hasked (h.2 e he).2⟩⟩

theorem asked_of_confirmed {r : Reading} {asked askedPaths : Nat} {answer : Answer}
    {paths : List String} (ha : r.Asked s asked) (hpaths : r.Asked s askedPaths) :
    ∀ e ∈ r.confirmed asked answer askedPaths paths, e.1 ∈ r.items ∧ r.Asked s e.2 := by
  intro e he
  rcases List.mem_filterMap.mp he with ⟨item, hitem, heq⟩
  split at heq
  · cases heq
    exact ⟨hitem, ha⟩
  · split at heq
    · cases heq
      exact ⟨hitem, hpaths⟩
    · simp at heq

-- What a step of a cycle does to the rows: nothing, or it promotes the next row, for which the
-- count is the one it has read.
theorem cycleNext_shared (c : Outside) (h : Knowledge s pc) :
    (cycleNext c s pc).1 = s ∨
      ∃ r item asked rest st db, pc = .promote r ((item, asked) :: rest) ∧
        s.db.standing item.key = some st ∧ st.status ∈ realDoneStatuses ∧
        st.generation = item.completionGeneration ∧ Effect (.promotion item.key) s.db db ∧
        (cycleNext c s pc).1 = ⟨db, s.log ++ [.promotion item.key]⟩ := by
  unfold cycleNext
  split
  · exact .inl rfl
  cases pc with
  | read kind | ask r | askPaths r asked answer | awaitingPaths r asked answer askedPaths
  | ended => exact .inl rfl
  | awaiting r asked =>
    dsimp only
    split
    · exact .inl rfl
    · exact .inl rfl
  | promote r rest =>
    cases rest with
    | nil =>
      dsimp only
      split
      · exact .inl rfl
      · exact .inl rfl
    | cons e rest =>
      rcases e with ⟨item, asked⟩
      rcases h.1.items item (h.2 (item, asked) (by simp)).1 with ⟨st, hst, -⟩
      dsimp only
      split
      · exact .inl rfl
      · rename_i db hpromote
        rcases promote_effect hst hpromote with ⟨hdone, hgen, heff⟩
        exact .inr ⟨r, item, asked, rest, st, db, rfl, hst, hdone, hgen, heff, rfl⟩
      · rename_i db hpromote
        left
        rw [promote_refused hst hpromote]

theorem Knowledge.act (c : Outside) {pc' : CyclePc} (h : Knowledge s pc)
    (h' : Knowledge s pc') : Knowledge (cycleNext c s pc).1 pc' := by
  rcases cycleNext_shared c h with hsame | ⟨r, item, asked, rest, st, db, -, -, -, -, heff, heq⟩
  · rw [hsame]
    exact h'
  · rw [heq]
    exact h'.commit heff

theorem Knowledge.next (c : Outside) (h : Knowledge s pc) :
    Knowledge (cycleNext c s pc).1 (cycleNext c s pc).2 := by
  -- The rows may have changed, and then what was known is known of the new ones.
  have hkept := Knowledge.act c h h
  revert hkept
  unfold cycleNext
  split
  · exact fun _ => trivial
  cases pc with
  | read kind => exact fun _ => knows_of_read s kind
  | ask r => exact fun _ => ⟨h, h.since_le, Nat.le_refl _⟩
  | awaiting r asked =>
    dsimp only
    split
    · exact fun _ => ⟨h.1, asked_of_confirmed h.2 h.2⟩
    · exact fun _ => h
  | askPaths r asked answer => exact fun _ => ⟨h.1, h.2, h.1.since_le, Nat.le_refl _⟩
  | awaitingPaths r asked answer askedPaths =>
    exact fun _ => ⟨h.1, asked_of_confirmed h.2.1 h.2.2⟩
  | promote r rest =>
    cases rest with
    | nil =>
      dsimp only
      split
      · exact fun _ => trivial
      · exact fun _ => trivial
    | cons e rest =>
      dsimp only
      split
      · exact fun _ => trivial
      · exact fun hkept => ⟨hkept.1, fun e he => hkept.2 e (List.mem_cons_of_mem _ he)⟩
      · exact fun hkept => ⟨hkept.1, fun e he => hkept.2 e (List.mem_cons_of_mem _ he)⟩
  | ended => exact fun _ => trivial

/-! ### Runs -/

def outline : Outline Shared CyclePc where
  Shared := fun _ => True
  Local := Knowledge
  Apart := fun _ _ => True
  weight := fun _ => 0
  held := fun _ => 0

theorem outline_sound : outline.Sound cycleNext (fun _ _ _ => True) where
  symm := fun _ _ _ => trivial
  own := fun _ _ c _ h _ _ => ⟨trivial, h.next c⟩
  frame := fun _ _ _ c _ ha hb _ _ _ => Knowledge.act c ha hb
  apart := fun _ _ _ _ _ _ _ _ => trivial
  account := fun _ _ _ _ _ _ => rfl

theorem step_holds {w w' : World} {a : Action} (h : outline.Holds w) (hstep : step w a = some w') :
    outline.Holds w' := by
  cases a with
  | arrive =>
    cases hstep
    exact h.spawn (fun _ _ _ => trivial) trivial (fun _ _ => trivial) rfl
  | act i c => exact outline_sound.act h (fun _ _ => trivial) hstep
  | other now v =>
    rcases Option.map_eq_some_iff.mp hstep with ⟨db, hdb, rfl⟩
    exact ⟨trivial, fun pc hpc => (h.locals pc hpc).commit (Verb.effect hdb), h.apart, h.account⟩

theorem holds_of_run {as : List Action} {w : World}
    (hrun : run step (World.idle db) as = some w) : outline.Holds w := by
  refine invariant_of_run (fun _ _ _ h hstep => step_holds h hstep) (World.idle db) w as ?_ hrun
  exact ⟨trivial, fun pc hpc => absurd hpc nofun, List.Pairwise.nil, rfl⟩

/-- A promotion rests on an answer to a request that was made after the row was
    read, and the row was read after it was completed for the last time. Where
    it was opened for a search since then, it was taken back afterwards. -/
structure Current (log : List Commit) (since asked : Nat) (key : RowKey) : Prop where
  requested : since ≤ asked ∧ asked ≤ log.length
  completed : ∀ j c, log[j]? = some c → c.completes key = true → j < since
  rearmed : ∀ j c, since ≤ j → log[j]? = some c → c.rearms key = true →
    ∃ k d, j < k ∧ log[k]? = some d ∧ d.restores key = true

theorem getElem?_mem_drop {α : Type} {l : List α} {n j : Nat} {a : α} (hn : n ≤ j)
    (h : l[j]? = some a) : a ∈ l.drop n := by
  refine List.mem_of_getElem? (i := j - n) ?_
  rw [List.getElem?_drop, Nat.add_sub_cancel' hn]
  exact h

theorem current_of_since {log : List Commit} {since asked : Nat}
    (hasked : since ≤ asked ∧ asked ≤ log.length) (h : Since item (log.drop since) st)
    (hgen : st.generation = item.completionGeneration)
    (hdone : st.status ∈ realDoneStatuses) : Current log since asked item.key := by
  have hnone : ∀ c ∈ log.drop since, c.completes item.key = false := by
    intro c hc
    cases hcmp : c.completes item.key with
    | false => rfl
    | true =>
      have hpass := h.passed ⟨c, hc, hcmp⟩
      rw [hgen] at hpass
      exact absurd hpass (Nat.lt_irrefl _)
  refine ⟨hasked, fun j c hj hc => ?_, fun j c hle hj hc => ?_⟩
  · refine Decidable.byContradiction fun hlt => ?_
    have hmem := getElem?_mem_drop (Nat.le_of_not_lt hlt) hj
    simp [hnone c hmem] at hc
  · -- Split the later commits where the row was opened.
    rcases List.getElem?_eq_some_iff.mp hj with ⟨hlt, rfl⟩
    have hspl : log.drop since =
        (log.drop since).take (j - since) ++ log[j] :: log.drop (j + 1) := by
      have hat : log.drop j = log[j] :: log.drop (j + 1) := List.drop_eq_getElem_cons hlt
      rw [← hat]
      have hdrop : log.drop j = (log.drop since).drop (j - since) := by
        rw [List.drop_drop, Nat.add_sub_cancel' hle]
      rw [hdrop, List.take_append_drop]
    by_cases hrest : ∃ d ∈ log.drop (j + 1), d.restores item.key = true
    · rcases hrest with ⟨d, hd, hrst⟩
      rcases List.getElem?_of_mem hd with ⟨k, hk⟩
      rw [List.getElem?_drop] at hk
      exact ⟨j + 1 + k, d, by omega, hk, hrst⟩
    · refine absurd hdone (h.reopened _ _ _ hspl hc fun d hd => ⟨?_, ?_⟩)
      · refine hnone d ?_
        rw [hspl]
        exact List.mem_append_right _ (List.mem_cons_of_mem _ hd)
      · cases hd' : d.restores item.key with
        | false => rfl
        | true => exact absurd ⟨d, hd, hd'⟩ hrest

/-- Whatever a cycle does next in any run, it promotes a row on an answer that
    is current, or it changes no row at all. -/
theorem promotion_is_current {db : Db} {as : List Action} {w w' : World} {i : Nat} {c : Outside}
    (hrun : run step (World.idle db) as = some w) (hact : step w (.act i c) = some w') :
    w'.shared = w.shared ∨
      ∃ r item asked rest, w.actors[i]? = some (.promote r ((item, asked) :: rest)) ∧
        w'.shared.log = w.shared.log ++ [.promotion item.key] ∧
        Current w.shared.log r.since asked item.key := by
  have hhold := holds_of_run hrun
  rcases World.act_eq_some hact with ⟨pc, before, after, hat, hactors, rfl⟩
  have hknow : Knowledge w.shared pc := hhold.locals pc (by rw [hactors]; simp)
  rcases cycleNext_shared c hknow with
    hsame | ⟨r, item, asked, rest, st, db', rfl, hst, hdone, hgen, -, heq⟩
  · exact .inl hsame
  · refine .inr ⟨r, item, asked, rest, hat, by rw [heq], ?_⟩
    have hown := hknow.2 (item, asked) (by simp)
    rcases hknow.1.items item hown.1 with ⟨st', hst', hsince⟩
    obtain rfl : st' = st := Option.some.inj (hst'.symm.trans hst)
    exact current_of_since hown.2 hsince hgen hdone

/-! ### A row that was opened again -/

def importedSeason : SeasonRequest :=
  { mediaRequestId := 1
    seasonNumber := 2
    status := .completed
    libraryPath := some "/tv/Show/Season 02"
    completionGeneration := some 1 }

/-- One show with one season that was imported. -/
def finalizing : Db where
  movies := Table.empty
  shows := ⟨[{ id := 1, tmdbId := 7, status := .completed }], by decide⟩
  seasons := ⟨[importedSeason], by decide⟩

def seasonPresent : Outside := { answer := .shows [(7, [2])] }

/-- A cycle has asked Plex when the season is reported. The files cannot be
    deleted, and the recovery of an eviction takes the season back to
    `available` before the answer is acted on. -/
def reported : List Action :=
  [.arrive, .act 0 {}, .act 0 {}, .act 0 {}, .act 0 {}, .act 0 {}, .act 0 {},
    .other 0 (.reportSeason 1 2 false), .act 0 seasonPresent, .other 0 (.restoreSeason 1 2)]

/-- The promotion goes through although the row was opened after it was read. -/
theorem promotion_after_rearm :
    ∃ w w' r rest, run step (World.idle finalizing) reported = some w ∧
      step w (.act 0 {}) = some w' ∧ w.actors[0]? = some (.promote r rest) ∧ r.since = 0 ∧
      w.shared.log[0]? = some (.other (.reportSeason 1 2 false)) ∧
      w'.shared.log = w.shared.log ++ [.promotion (.season 1 2)] :=
  ⟨_, _, _, _, rfl, rfl, rfl, rfl, rfl, rfl⟩

/-- The answer is current all the same. -/
theorem promotion_is_current_reported :
    ∃ w w', run step (World.idle finalizing) reported = some w ∧
      step w (.act 0 {}) = some w' ∧
      (w'.shared = w.shared ∨
        ∃ r item asked rest, w.actors[0]? = some (.promote r ((item, asked) :: rest)) ∧
          w'.shared.log = w.shared.log ++ [.promotion item.key] ∧
          Current w.shared.log r.since asked item.key) :=
  ⟨_, _, rfl, rfl, @promotion_is_current finalizing reported _ _ 0 {} rfl rfl⟩

end Availability

end PlexManager
