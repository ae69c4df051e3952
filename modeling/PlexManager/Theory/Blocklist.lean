import PlexManager.Core.Blocklist
import PlexManager.Theory.Decision
import PlexManager.Theory.Grab.Effects

/-!
# What stays on the blocklist

A row of the blocklist is written for a release, and the decision engine is to
reject that release from then on. A candidate that has a hash is always caught
by it. One that has none is only caught if the row has the title and the indexer
the release was grabbed with.

The indexer is right, because only a grab writes one to the history. The title
need not be: it is the newest that was written down for the hash, and after a
report that is the title of the request. As long as no other entry has come over
the one of the grab, the row is right. Where one has, the release is rejected
only if an earlier row for the same media has it already.

Rows are never taken away, so what is rejected once stays so.

## Theorems

* `stays_blocklisted_iff`: When a release is never accepted again.
* `regrabbed_after_report`: One that is accepted again.
-/

namespace PlexManager

namespace Blocklist

open Grab DecisionEngine Transition

variable (casefold : String → String)

/-! ### What is asked of the blocklist -/

/-- Whatever else a decision goes by, it accepts no candidate with the title and
    the indexer of a release that has its hash, or none. -/
def Rejects (blocklist : List BlocklistRow) (tmdbId : Int) (mediaType : MediaType)
    (torrentHash : String) (o : Origin) : Prop :=
  ∀ q : Criteria, q.isBlocklisted = blocklistHook casefold blocklist tmdbId mediaType →
    ∀ candidates : List CandidateRelease, ∀ candidate ∈ candidates,
      candidate.title = o.title → candidate.indexerName = o.indexer →
      (candidate.infoHash = some torrentHash ∨ candidate.infoHash = none) →
      ∀ scored ∈ (decide q candidates).accepted, scored.candidate ≠ candidate

/-- A row of the media has the title and the indexer of a release. -/
def Listed (blocklist : List BlocklistRow) (tmdbId : Int) (mediaType : MediaType)
    (o : Origin) : Prop :=
  ∃ row ∈ listForMedia blocklist tmdbId mediaType,
    sameTitle casefold o.title row.sourceTitle = true ∧
      sameIndexer casefold (some o.indexer) row.indexer = true

def NewestTitle (history : List HistoryEntry) (torrentHash title : String) : Prop :=
  ∃ before entry after, history = before ++ entry :: after ∧
    entry.torrentHash = some torrentHash ∧ entry.sourceTitle = some title ∧
    ∀ later ∈ after, later.torrentHash = some torrentHash → later.sourceTitle = none

/-- The newest title that the history has for a hash is the one of a release, up
    to case and separators. An empty one counts as the hash. -/
def Named (history : List HistoryEntry) (torrentHash : String) (o : Origin) : Prop :=
  ∃ title, NewestTitle history torrentHash title ∧
    sameTitle casefold o.title (if title = "" then torrentHash else title) = true

/-! ### The two tiers -/

variable {casefold} {infoHash indexer : Option String} {sourceTitle : String}

theorem truthy_none : truthy none = none := rfl

variable {mediaType : MediaType} {tmdbId : Int} {o : Origin} {write : Write} {torrentHash : String}
  {blocklist : List BlocklistRow} {history : List HistoryEntry} {entry : HistoryEntry}

theorem matchesEntry_of_hash {entry : BlocklistedRelease}
    (h : truthy (some torrentHash) = some torrentHash) (hent : entry.infoHash = some torrentHash) :
    matchesEntry casefold entry (some torrentHash) sourceTitle indexer = true := by
  unfold matchesEntry
  rw [hent, h]
  simp

theorem isBlocklisted_hashless_iff (h : truthy infoHash = none) :
    isBlocklisted casefold infoHash o.title (some o.indexer)
        ((listForMedia blocklist tmdbId mediaType).map BlocklistRow.release) = true ↔
      Listed casefold blocklist tmdbId mediaType o := by
  unfold isBlocklisted Listed
  rw [List.any_map, List.any_eq_true]
  refine exists_congr fun row => and_congr_right fun _ => ?_
  rw [Function.comp_apply, matchesEntry, h, Bool.and_eq_true]
  rfl

/-! ### The decision -/

theorem accepted_iff {q : Criteria} {candidates : List CandidateRelease}
    {candidate : CandidateRelease} :
    (∃ scored ∈ (decide q candidates).accepted, scored.candidate = candidate) ↔
      candidate ∈ candidates ∧ passing q candidate = true := by
  have hperm := (gated q candidates).1.mem_iff (a := candidate)
  rwa [List.mem_map, List.mem_filter] at hperm

def flawless (title : String) : SourceMapping.ParsedRelease where
  rawTitle := title
  cleanTitle := title
  source := .bluray
  resolution := .r1080p

def lenient (hook : CandidateRelease → SourceMapping.ParsedRelease → Bool) : Criteria where
  parser := flawless
  profile := Quality.defaultProfile
  mediaMatch _ _ := true
  isBlocklisted := hook

theorem passing_lenient (hook : CandidateRelease → SourceMapping.ParsedRelease → Bool)
    (candidate : CandidateRelease) :
    passing (lenient hook) candidate = !hook candidate (flawless candidate.title) := by
  have hscope : SeasonPack.classifyReleaseScope (flawless candidate.title) ≠ .multiSeasonPack := by
    show SeasonPack.classifyReleaseScope (flawless "") ≠ .multiSeasonPack
    decide
  have hqual :
      Quality.defaultProfile.allows (qualityOf (flawless candidate.title)).id = true := by
    show Quality.defaultProfile.allows (qualityOf (flawless "")).id = true
    decide
  simp [passing, gates, lenient, hqual, multiSeasonPlan, outsideSubset, hscope]

def candidateOf (o : Origin) (infoHash : Option String) : CandidateRelease where
  guid := ""
  title := o.title
  sizeBytes := 0
  infoHash := infoHash
  indexerId := 0
  indexerName := o.indexer
  publishDate := 0

theorem rejects_iff :
    Rejects casefold blocklist tmdbId mediaType torrentHash o ↔
      ∀ infoHash, infoHash = some torrentHash ∨ infoHash = none →
        isBlocklisted casefold infoHash o.title (some o.indexer)
          ((listForMedia blocklist tmdbId mediaType).map BlocklistRow.release) = true := by
  constructor
  · intro h infoHash hhash
    by_contra hclr
    -- Were it not matched, the most lenient of all decisions would accept it.
    have hpass : passing (lenient (blocklistHook casefold blocklist tmdbId mediaType))
        (candidateOf o infoHash) = true := by
      rw [passing_lenient]
      simpa [blocklistHook, candidateOf] using hclr
    rcases accepted_iff.mpr ⟨List.mem_singleton_self _, hpass⟩ with ⟨scored, hscored, hsame⟩
    exact h _ rfl _ _ (List.mem_singleton_self _) rfl rfl hhash scored hscored hsame
  · intro h q hq candidates candidate _ htitle hindexer hhash scored hscored hsame
    have hpass := (accepted_iff.mp ⟨scored, hscored, hsame⟩).2
    have hgate : q.isBlocklisted candidate (q.parser candidate.title) = false := by
      simp only [passing, gates, List.all_cons, Bool.and_eq_true] at hpass
      simpa using hpass.2.2.2.2.2.2.1
    have hmatch := h candidate.infoHash hhash
    have hclr : isBlocklisted casefold candidate.infoHash candidate.title
        (some candidate.indexerName)
        ((listForMedia blocklist tmdbId mediaType).map BlocklistRow.release) = false := by
      rwa [hq] at hgate
    rw [htitle, hindexer, hmatch] at hclr
    cases hclr

/-! ### The history -/

theorem sourceTitleFor_eq_some {title : String} :
    sourceTitleFor history torrentHash = some title ↔ NewestTitle history torrentHash title := by
  unfold sourceTitleFor NewestTitle
  rw [List.getLast?_filterMap, List.findSome?_eq_some_iff]
  -- Read from its end, the history is the later entries, the entry, and the earlier ones.
  constructor
  · rintro ⟨after, entry, before, hspl, hent, haft⟩
    refine ⟨before.reverse, entry, after.reverse, ?_, ?_⟩
    · have hrev := congrArg List.reverse hspl
      simpa using hrev
    · split at hent
      · rename_i hhash
        refine ⟨hhash, hent, fun later hnext hhash' => ?_⟩
        have hnone := haft later (List.mem_reverse.mp hnext)
        rwa [if_pos hhash'] at hnone
      · exact nomatch hent
  · rintro ⟨before, entry, after, rfl, hhash, htitle, haft⟩
    refine ⟨after.reverse, entry, before.reverse, by simp, by rw [if_pos hhash, htitle], ?_⟩
    intro later hnext
    split
    · rename_i hhash'
      exact haft later (List.mem_reverse.mp hnext) hhash'
    · rfl

theorem indexerFor_append :
    indexerFor (history ++ [entry]) torrentHash =
      if entry.torrentHash = some torrentHash then entry.indexer.or (indexerFor history torrentHash)
      else indexerFor history torrentHash := by
  unfold indexerFor
  by_cases hhash : entry.torrentHash = some torrentHash
  · cases hindexer : entry.indexer with
    | none | some indexer => simp [hhash, hindexer]
  · simp [hhash]

theorem sourceTitleFor_append :
    sourceTitleFor (history ++ [entry]) torrentHash =
      if entry.torrentHash = some torrentHash then
        entry.sourceTitle.or (sourceTitleFor history torrentHash)
      else sourceTitleFor history torrentHash := by
  unfold sourceTitleFor
  by_cases hhash : entry.torrentHash = some torrentHash
  · cases htitle : entry.sourceTitle with
    | none | some title => simp [hhash, htitle]
  · simp [hhash]

/-! ### Transactions -/

/-- What a transaction does to the tables that titles and indexers are kept in. A
    grab makes an entry with both. Any other entry has no indexer. -/
structure Effect (naming : Naming) (w : World) (e : Event) (w' : World) : Prop where
  blocklist : w'.blocklist = blocked naming w e
  rows : (∃ d indexer, w'.history = w.history ++ [grabEntry d indexer] ∧
      w'.origin = regrab w d indexer ∧
      ∀ k, k ≠ d.torrentHash → (w'.db.getByHash k).isSome = (w.db.getByHash k).isSome) ∨
    w'.origin = w.origin ∧
      (w'.history = w.history ∨
        ∃ entry, w'.history = w.history ++ [entry] ∧ entry.indexer = none) ∧
      ∀ k, (w'.db.getByHash k).isSome = (w.db.getByHash k).isSome

variable {naming : Naming} {w w' : World} {e : Event} {es : List Event} {other : MediaType}
  {row : BlocklistRow}

theorem isSome_setStatus (db : Database) (torrentHash : String) (status : DownloadState)
    (failedReason : Option String) (k : String) :
    ((setStatus db torrentHash status failedReason).getByHash k).isSome =
      (db.getByHash k).isSome := by
  unfold setStatus Database.getByHash
  rw [KeyedTable.Table.find_modify, Option.isSome_map]

theorem isSome_reuse {db db' : Database} {d : Download} (h : db.reuse d = .ok (true, db'))
    (k : String) (hk : k ≠ d.torrentHash) : (db'.getByHash k).isSome = (db.getByHash k).isSome := by
  rcases reuse_eq_ok h with ⟨hfalse, -⟩ | ⟨-, _, _, _, _, hoth⟩
  · exact nomatch hfalse
  · rw [hoth k hk]

theorem Effect.quiet {db : Database} {seen : List Download} {audits : List Audit}
    (hblk : blocklist = blocked naming w e)
    (hrows : ∀ k, (db.getByHash k).isSome = (w.db.getByHash k).isSome) :
    Effect naming w e { w with db, blocklist, seen, audits } :=
  ⟨hblk, .inr ⟨rfl, .inl rfl, hrows⟩⟩

theorem Effect.noted (hblk : w.blocklist = blocked naming w e) (hent : entry.indexer = none) :
    Effect naming w e { w with history := w.history ++ [entry] } :=
  ⟨hblk, .inr ⟨rfl, .inr ⟨entry, rfl, hent⟩, fun _ => rfl⟩⟩

theorem blocked_of_no_write (h : e.write naming w.db = none) :
    w.blocklist = blocked naming w e := by
  simp [blocked, h]

theorem step_effect (hstep : step naming w e = some w') : Effect naming w e w' := by
  cases e with
  | grabbed d indexer =>
    simp only [step] at hstep
    split at hstep
    · exact nomatch hstep
    split at hstep
    · exact nomatch hstep
    rename_i db hcre
    cases hstep
    have hqt : w.blocklist = blocked naming w (.grabbed d indexer) :=
      blocked_of_no_write rfl
    refine ⟨hqt, .inl ⟨d, indexer, rfl, rfl, fun k hk => ?_⟩⟩
    exact congrArg Option.isSome ((create_eq_ok hcre).2.2 k hk)
  | regrabbed d indexer =>
    simp only [step] at hstep
    split at hstep
    · exact nomatch hstep
    split at hstep
    · rename_i db hreu
      cases hstep
      have hqt : w.blocklist = blocked naming w (.regrabbed d indexer) :=
        blocked_of_no_write rfl
      exact ⟨hqt, .inl ⟨d, indexer, rfl, rfl, isSome_reuse hreu⟩⟩
    · exact nomatch hstep
  | attached torrentHash mediaRequestId season episodes =>
    simp only [step] at hstep
    split at hstep
    · split at hstep
      · exact nomatch hstep
      rename_i db hscope
      cases hstep
      refine Effect.quiet (blocked_of_no_write rfl) fun k => ?_
      rw [getByHash_congr (downloads_ensureScope hscope).1]
    · exact nomatch hstep
  | moved torrentHash status failedReason =>
    simp only [step] at hstep
    split at hstep
    · cases hstep
      refine Effect.quiet (blocked_of_no_write rfl) fun k => ?_
      -- Settling the scopes leaves the rows alone.
      rw [← isSome_setStatus w.db torrentHash status failedReason k]
      split
      · rfl
      · rfl
      · rfl
    · exact nomatch hstep
  | stamped torrentHash marker =>
    simp only [step] at hstep
    split at hstep
    · cases hstep
      exact Effect.quiet (blocked_of_no_write rfl) (isSome_setStatus _ _ _ _)
    · exact nomatch hstep
  | scopesSettled torrentHash mediaRequestId season status | libraryMoved library =>
    cases hstep
    exact Effect.quiet (blocked_of_no_write rfl) fun _ => rfl
  | observed torrentHash =>
    rcases Option.map_eq_some_iff.mp hstep with ⟨d, -, rfl⟩
    exact Effect.quiet (blocked_of_no_write rfl) fun _ => rfl
  | noted eventType row | importNoted eventType tmdbId torrentHash
  | untiedNoted eventType tmdbId title | audited audit =>
    simp only [step] at hstep
    split at hstep
    · cases hstep
      exact Effect.noted (blocked_of_no_write rfl) rfl
    · exact nomatch hstep
  | failedHandled record observedFailedReason reason blocklistReason
  | markedFailed row marker finalReason | packRejected torrentHash mediaRequestId finished =>
    simp only [step] at hstep
    split at hstep
    · cases hstep
      exact Effect.quiet rfl (isSome_setStatus _ _ _ _)
    · exact nomatch hstep
  | reported mediaRequestId season reason =>
    simp only [step] at hstep
    split at hstep
    · cases hstep
      exact Effect.quiet rfl fun _ => rfl
    · exact nomatch hstep

/-! ### Runs -/

/-- Nothing was grabbed yet. The blocklist may have rows, also old ones without a
    type. -/
structure World.Fresh (w : World) : Prop where
  downloads : ∀ k, w.db.getByHash k = none
  origin : ∀ k, w.origin k = none

/-- Every row was grabbed, and the history has a title and the indexer of the last
    grab. -/
structure Sourced (w : World) : Prop where
  grabbed : ∀ k, (w.db.getByHash k).isSome = true → (w.origin k).isSome = true
  indexer : ∀ k o, w.origin k = some o → indexerFor w.history k = some o.indexer
  title : ∀ k, (w.origin k).isSome = true → (sourceTitleFor w.history k).isSome = true

theorem World.Fresh.sourced (hnew : w.Fresh) : Sourced w where
  grabbed k h := by simp [hnew.downloads k] at h
  indexer k o h := by simp [hnew.origin k] at h
  title k h := by simp [hnew.origin k] at h

theorem step_sourced (h : Sourced w) (hstep : step naming w e = some w') : Sourced w' := by
  rcases (step_effect hstep).rows with ⟨d, indexer, hhist, horig, hrows⟩ | ⟨horig, hhist, hrows⟩
  · -- The hash that was grabbed has a new entry, and the others have none.
    have hoth : ∀ k, k ≠ d.torrentHash → w'.origin k = w.origin k := by
      intro k hk
      rw [horig, regrab, Function.update_of_ne hk]
    have hsame : w'.origin d.torrentHash = some ⟨d.metadata.releaseTitle, indexer⟩ := by
      rw [horig, regrab, Function.update_self]
    refine ⟨fun k hk => ?_, fun k o hk => ?_, fun k hk => ?_⟩
    · by_cases hhash : k = d.torrentHash
      · rw [hhash, hsame]
        rfl
      · rw [hoth k hhash]
        exact h.grabbed k (hrows k hhash ▸ hk)
    · rw [hhist, indexerFor_append]
      by_cases hhash : k = d.torrentHash
      · rw [hhash, hsame] at hk
        cases hk
        simp [hhash, grabEntry]
      · rw [hoth k hhash] at hk
        have hne : (grabEntry d indexer).torrentHash ≠ some k := fun heq =>
          hhash (Option.some.inj heq).symm
        rw [if_neg hne]
        exact h.indexer k o hk
    · rw [hhist, sourceTitleFor_append]
      by_cases hhash : k = d.torrentHash
      · simp [hhash, grabEntry]
      rw [hoth k hhash] at hk
      have hne : (grabEntry d indexer).torrentHash ≠ some k := fun heq =>
        hhash (Option.some.inj heq).symm
      rw [if_neg hne]
      exact h.title k hk
  · refine ⟨fun k hk => ?_, fun k o hk => ?_, fun k hk => ?_⟩
    · rw [horig]
      exact h.grabbed k (hrows k ▸ hk)
    · rw [horig] at hk
      rcases hhist with hkeep | ⟨entry, hkeep, hnone⟩
      · rw [hkeep]
        exact h.indexer k o hk
      · rw [hkeep, indexerFor_append, hnone, Option.none_or, ite_self]
        exact h.indexer k o hk
    · rw [horig] at hk
      rcases hhist with hkeep | ⟨entry, hkeep, -⟩
      · rw [hkeep]
        exact h.title k hk
      rw [hkeep, sourceTitleFor_append]
      have htitle := h.title k hk
      split
      · cases entry.sourceTitle with
        | none => exact htitle
        | some title => rfl
      · exact htitle

theorem run_sourced (hnew : w.Fresh) (hrun : run (step naming) w es = some w') : Sourced w' :=
  invariant_of_run (fun _ _ _ h hstep => step_sourced h hstep) w w' es hnew.sourced hrun

theorem run_blocklist (hrun : run (step naming) w es = some w') : w.blocklist ⊆ w'.blocklist := by
  refine invariant_of_run (I := fun v => w.blocklist ⊆ v.blocklist) ?_ w w' es
    (List.Subset.refl _) hrun
  intro u a u' hsub hstep
  rw [(step_effect hstep).blocklist, blocked]
  exact fun row hrow => List.mem_append_left _ (hsub hrow)

/-! ### A row that was just written -/

theorem write_of_step (hwr : e.write naming w.db = some write) (hstep : step naming w e = some w') :
    (w.db.getByHash write.torrentHash).isSome = true ∧ write.mediaType.isSome = true := by
  have hat : ∀ {k : String} {p : Download → Bool}, rowAt w.db k p = true →
      (w.db.getByHash k).isSome = true := by
    intro k p h
    unfold rowAt at h
    cases hrow : w.db.getByHash k with
    | none => simp [hrow] at h
    | some d => rfl
  have htyped : ∀ (record : Download) (requestMediaType : Option MediaType),
      (mediaTypeForBlocklist (some record) requestMediaType).isSome = true := by
    intro record requestMediaType
    cases requestMediaType with
    | some mediaType => rfl
    | none =>
      simp only [mediaTypeForBlocklist]
      split
      · rfl
      · split
        · rfl
        · rfl
  cases e with
  | failedHandled record observedFailedReason reason blocklistReason =>
    simp only [step] at hstep
    split at hstep
    · rename_i hgrd
      cases hwr
      exact ⟨hat hgrd.2, htyped _ _⟩
    · exact nomatch hstep
  | markedFailed row marker finalReason =>
    simp only [step] at hstep
    split at hstep
    · rename_i hgrd
      cases hwr
      have hrow := hat hgrd.2
      refine ⟨hrow, ?_⟩
      rcases Option.isSome_iff_exists.mp hrow with ⟨d, hd⟩
      simp only [hd]
      exact htyped _ _
    · exact nomatch hstep
  | packRejected torrentHash mediaRequestId finished =>
    simp only [step] at hstep
    split at hstep
    · rename_i hgrd
      cases hwr
      exact ⟨hat hgrd.1, rfl⟩
    · exact nomatch hstep
  | reported mediaRequestId season reason =>
    rcases Option.map_eq_some_iff.mp hwr with ⟨culprit, hculprit, rfl⟩
    refine ⟨?_, rfl⟩
    -- The culprit is taken from the rows, so its hash finds one.
    have hmem := (List.mem_filter.mp (List.mem_of_getLast? hculprit)).1
    by_contra hnone
    rw [Option.not_isSome_iff_eq_none] at hnone
    exact KeyedTable.Table.find_eq_none.mp hnone culprit hmem rfl
  | grabbed | regrabbed | attached | moved | stamped | scopesSettled | libraryMoved | observed
  | noted | importNoted | untiedNoted | audited => exact nomatch hwr

theorem blocklist_of_write (hwr : e.write naming w.db = some write)
    (hstep : step naming w e = some w') : w'.blocklist = w.blocklist ++ [write.row w.history] := by
  rw [(step_effect hstep).blocklist, blocked, hwr]
  rfl

theorem sameTitle_row_iff (hsrc : Sourced w) (ho : w.origin write.torrentHash = some o) :
    sameTitle casefold o.title (write.row w.history).sourceTitle = true ↔
      Named casefold w.history write.torrentHash o := by
  have htitled := hsrc.title write.torrentHash (ho ▸ rfl)
  rcases Option.isSome_iff_exists.mp htitled with ⟨title, htitle⟩
  have hrow : (write.row w.history).sourceTitle =
      if title = "" then write.torrentHash else title := by
    simp only [Write.row, htitle, orText]
  rw [hrow]
  constructor
  · intro hsame
    exact ⟨title, sourceTitleFor_eq_some.mp htitle, hsame⟩
  · rintro ⟨newest, hnew, hsame⟩
    -- There is only one newest title.
    have heq := (sourceTitleFor_eq_some.mpr hnew).symm.trans htitle
    cases heq
    exact hsame

theorem sameIndexer_row (hsrc : Sourced w) (ho : w.origin write.torrentHash = some o) :
    sameIndexer casefold (some o.indexer) (write.row w.history).indexer = true := by
  have hindexer : (write.row w.history).indexer = some o.indexer :=
    hsrc.indexer write.torrentHash o ho
  rw [hindexer]
  simp [sameIndexer]

theorem inMediaTypeScope_iff (row : BlocklistRow) (h : row.mediaType = some mediaType) :
    inMediaTypeScope other row = true ↔ other = mediaType := by
  cases other <;> cases mediaType <;> simp [inMediaTypeScope, h]

theorem listForMedia_append :
    listForMedia (blocklist ++ [row]) tmdbId mediaType =
      listForMedia blocklist tmdbId mediaType ++ listForMedia [row] tmdbId mediaType :=
  List.filter_append ..

theorem listForMedia_singleton (row : BlocklistRow) (htmdb : row.tmdbId = some tmdbId)
    (htype : row.mediaType = some mediaType) : listForMedia [row] tmdbId mediaType = [row] := by
  simp [listForMedia, htmdb, (inMediaTypeScope_iff row htype).mpr rfl]

theorem Listed.mono {blocklist' : List BlocklistRow} (hsub : blocklist ⊆ blocklist')
    (h : Listed casefold blocklist tmdbId mediaType o) :
    Listed casefold blocklist' tmdbId mediaType o := by
  rcases h with ⟨row, hrow, hsame⟩
  have hmem := List.mem_filter.mp hrow
  exact ⟨row, List.mem_filter.mpr ⟨hsub hmem.1, hmem.2⟩, hsame⟩

-- After a row was written, a candidate without a hash is caught by it or by an earlier one.
theorem listed_write_iff (hsrc : Sourced w) (ho : w.origin write.torrentHash = some o)
    (htmdb : write.tmdbId = some tmdbId) (htype : write.mediaType = some mediaType) :
    Listed casefold (w.blocklist ++ [write.row w.history]) tmdbId mediaType o ↔
      Named casefold w.history write.torrentHash o ∨
        Listed casefold w.blocklist tmdbId mediaType o := by
  rw [← sameTitle_row_iff hsrc ho]
  unfold Listed
  rw [listForMedia_append, listForMedia_singleton (write.row w.history) htmdb htype]
  constructor
  · rintro ⟨row, hrow, hsame⟩
    rcases List.mem_append.mp hrow with hold | hnew
    · exact .inr ⟨row, hold, hsame⟩
    · obtain rfl := List.mem_singleton.mp hnew
      exact .inl hsame.1
  · rintro (htitle | ⟨row, hold, hsame⟩)
    · exact ⟨write.row w.history, List.mem_append_right _ (List.mem_singleton_self _), htitle,
        sameIndexer_row hsrc ho⟩
    · exact ⟨row, List.mem_append_left _ hold, hsame⟩

theorem rejects_iff_listed (hrow : row ∈ listForMedia blocklist tmdbId mediaType)
    (hhash : row.torrentHash = some torrentHash) :
    Rejects casefold blocklist tmdbId mediaType torrentHash o ↔
      Listed casefold blocklist tmdbId mediaType o := by
  rw [rejects_iff]
  constructor
  · intro h
    exact (isBlocklisted_hashless_iff truthy_none).mp (h none (.inr rfl))
  · rintro hlist infoHash (rfl | rfl)
    · by_cases hnil : torrentHash = ""
      · refine (isBlocklisted_hashless_iff ?_).mpr hlist
        simp [truthy, hnil]
      · have htruthy : truthy (some torrentHash) = some torrentHash := by
          simp [truthy, hnil]
        exact List.any_eq_true.mpr
          ⟨row.release, List.mem_map_of_mem hrow, matchesEntry_of_hash htruthy hhash⟩
    · exact (isBlocklisted_hashless_iff truthy_none).mpr hlist

-- A row that was just written keeps its release out iff it has the right title, or an earlier
-- one of the same media has. Whatever happens afterwards leaves it so.
theorem rejects_write_iff (hsrc : Sourced w) (hwr : e.write naming w.db = some write)
    (hstep : step naming w e = some w') (ho : w.origin write.torrentHash = some o)
    (htmdb : write.tmdbId = some tmdbId) (htype : write.mediaType = some mediaType) :
    (∀ later w'', run (step naming) w' later = some w'' →
        Rejects casefold w''.blocklist tmdbId mediaType write.torrentHash o) ↔
      Named casefold w.history write.torrentHash o ∨
        Listed casefold w.blocklist tmdbId mediaType o := by
  have hblk := blocklist_of_write hwr hstep
  have hmem : ∀ {blocklist : List BlocklistRow}, w'.blocklist ⊆ blocklist →
      write.row w.history ∈ listForMedia blocklist tmdbId mediaType := by
    intro blocklist hsub
    refine List.mem_filter.mpr ⟨hsub (by simp [hblk]), ?_⟩
    have hscope := (inMediaTypeScope_iff (write.row w.history) htype).mpr rfl
    rw [hscope, Bool.and_true]
    exact decide_eq_true htmdb
  rw [← listed_write_iff hsrc ho htmdb htype, ← hblk]
  constructor
  · intro h
    exact (rejects_iff_listed (hmem (List.Subset.refl _)) rfl).mp (h [] w' rfl)
  · intro hlist later w'' hrun
    have hsub := run_blocklist hrun
    exact (rejects_iff_listed (hmem hsub) rfl).mpr (hlist.mono hsub)

theorem blocklistHook_write (hwr : e.write naming w.db = some write)
    (hstep : step naming w e = some w') (htype : write.mediaType = some mediaType)
    (hoth : other ≠ mediaType) :
    blocklistHook casefold w'.blocklist tmdbId other =
      blocklistHook casefold w.blocklist tmdbId other := by
  have hscope : inMediaTypeScope other (write.row w.history) = false :=
    Bool.eq_false_iff.mpr fun h =>
      hoth ((inMediaTypeScope_iff (write.row w.history) htype).mp h)
  have hlist : listForMedia w'.blocklist tmdbId other = listForMedia w.blocklist tmdbId other := by
    rw [blocklist_of_write hwr hstep, listForMedia_append]
    simp [listForMedia, hscope]
  unfold blocklistHook
  rw [hlist]

/-! ### Releases that are never accepted again -/

/-- In every run, a release whose row goes to the blocklist is never accepted again
    for that media iff the newest title in the history of its hash is its own, or a
    row of the media has title and indexer already. And what is written for a movie
    never counts for a show, nor the other way round. -/
theorem stays_blocklisted_iff (casefold : String → String) (naming : Naming) (w₀ w w' : World)
    (es : List Event) (e : Event) (write : Write) (hfresh : w₀.Fresh)
    (hrun : run (step naming) w₀ es = some w) (hwrite : e.write naming w.db = some write)
    (hstep : step naming w e = some w') :
    ∃ o mediaType, w.origin write.torrentHash = some o ∧ write.mediaType = some mediaType ∧
      (∀ tmdbId, write.tmdbId = some tmdbId →
        ((∀ later w'', run (step naming) w' later = some w'' →
            Rejects casefold w''.blocklist tmdbId mediaType write.torrentHash o) ↔
          Named casefold w.history write.torrentHash o ∨
            Listed casefold w.blocklist tmdbId mediaType o)) ∧
      ∀ other, other ≠ mediaType → ∀ tmdbId, blocklistHook casefold w'.blocklist tmdbId other =
          blocklistHook casefold w.blocklist tmdbId other := by
  have hsrc := run_sourced hfresh hrun
  rcases write_of_step hwrite hstep with ⟨hat, htyped⟩
  rcases Option.isSome_iff_exists.mp (hsrc.grabbed _ hat) with ⟨o, ho⟩
  rcases Option.isSome_iff_exists.mp htyped with ⟨mediaType, htype⟩
  refine ⟨o, mediaType, ho, htype, fun tmdbId htmdb => ?_, fun other hoth tmdbId => ?_⟩
  · exact rejects_write_iff hsrc hwrite hstep ho htmdb htype
  · exact blocklistHook_write hwrite hstep htype hoth

/-- Two shows of the same name. -/
def namesakes : Naming where
  mediaType _ := .tv
  tmdbId := Int.ofNat
  title _ := "Show"

def firstSeasons (status status' : RequestStatus) : Seasons.Show where
  requests := ⟨[{ id := 1, status := status }, { id := 2, status := status' }], by simp⟩
  seasons := ⟨[{ mediaRequestId := 1, seasonNumber := 1, status := status },
    { mediaRequestId := 2, seasonNumber := 1, status := status' }],
    by simp [Seasons.SeasonRequest.key]⟩

def wanted : World where
  db :=
    { library := firstSeasons .searching .searching
      downloads := .empty
      scopes := .empty
      claims := .empty }
  history := []
  blocklist := []
  seen := []
  audits := []
  origin _ := none

def grabOf (mediaRequestId : Nat) : Download where
  torrentHash := "h"
  status := .downloading
  mediaRequestId := some mediaRequestId
  season := some 1
  episodes := none
  metadata :=
    { magnetLink := "magnet:"
      tmdbId := some (Int.ofNat mediaRequestId)
      year := none
      mediaType := some .tv
      releaseTitle := "Show.S01"
      payloadPending := false
      payloadResume := false
      payloadForceStart := false }
  traces := { addedAt := 0, timeoutAt := none }

def imports (mediaRequestId : Nat) : List Event :=
  [.moved "h" .importPending none, .moved "h" .importing none,
    .importNoted .importStarted (Int.ofNat mediaRequestId) "h", .moved "h" .imported none,
    .importNoted .imported (Int.ofNat mediaRequestId) "h"]

/-- The release is imported for the one show and then for the other, and is
    reported for the first. -/
def reportedOnce : List Event :=
  [.grabbed (grabOf 1) "indexer"] ++ imports 1 ++
    [.libraryMoved (firstSeasons .completed .searching), .regrabbed (grabOf 2) "indexer"] ++
    imports 2 ++
    [.libraryMoved (firstSeasons .completed .completed), .reported 1 (some 1) .wrongMedia,
      .audited { tmdbId := 1, torrentHash := some "h", title := "Show" },
      .libraryMoved (firstSeasons .searching .completed)]

theorem isSome_reportedOnce : (run (step namesakes) wanted reportedOnce).isSome = true := by
  decide

def twiceImported : World := (run (step namesakes) wanted reportedOnce).get isSome_reportedOnce

def secondReport : Event := .reported 2 (some 1) .wrongMedia

theorem isSome_secondReport : (step namesakes twiceImported secondReport).isSome = true := by
  decide

def reportedTwice : World := (step namesakes twiceImported secondReport).get isSome_secondReport

theorem wanted_fresh : wanted.Fresh := ⟨fun _ => rfl, fun _ => rfl⟩

theorem run_reportedOnce : run (step namesakes) wanted reportedOnce = some twiceImported :=
  (Option.some_get _).symm

theorem step_secondReport : step namesakes twiceImported secondReport = some reportedTwice :=
  (Option.some_get _).symm

def secondWrite : Write where
  torrentHash := "h"
  tmdbId := some 2
  mediaType := some .tv
  reason := .wrongMedia

theorem write_secondReport : secondReport.write namesakes twiceImported.db = some secondWrite := by
  decide

/-- The row of the second report has the title of the first request, so that the
    same release without a hash is accepted for the second. -/
theorem regrabbed_after_report :
    ¬ ∀ (casefold : String → String) (naming : Naming) (w₀ w w' : World) (es : List Event)
      (e : Event) (write : Write) (o : Origin) (tmdbId : Int) (mediaType : MediaType),
      w₀.Fresh → run (step naming) w₀ es = some w → e.write naming w.db = some write →
      step naming w e = some w' → w.origin write.torrentHash = some o →
      write.tmdbId = some tmdbId → write.mediaType = some mediaType →
      ∀ later w'', run (step naming) w' later = some w'' →
        Rejects casefold w''.blocklist tmdbId mediaType write.torrentHash o := by
  intro h
  have hrejects := h lower namesakes wanted twiceImported reportedTwice reportedOnce secondReport
    secondWrite ⟨"Show.S01", "indexer"⟩ 2 .tv wanted_fresh run_reportedOnce write_secondReport
    step_secondReport (by decide) rfl rfl [] reportedTwice rfl
  have hmatch := rejects_iff.mp hrejects none (.inr rfl)
  revert hmatch
  decide

/-- What the second report writes would stay as it should if the history still had
    the title of the release. -/
theorem stays_blocklisted_reported :
    ∃ o mediaType, twiceImported.origin secondWrite.torrentHash = some o ∧
      secondWrite.mediaType = some mediaType ∧
      (∀ tmdbId, secondWrite.tmdbId = some tmdbId →
        ((∀ later w'', run (step namesakes) reportedTwice later = some w'' →
            Rejects lower w''.blocklist tmdbId mediaType secondWrite.torrentHash o) ↔
          Named lower twiceImported.history secondWrite.torrentHash o ∨
            Listed lower twiceImported.blocklist tmdbId mediaType o)) ∧
      ∀ other, other ≠ mediaType → ∀ tmdbId,
        blocklistHook lower reportedTwice.blocklist tmdbId other =
          blocklistHook lower twiceImported.blocklist tmdbId other :=
  stays_blocklisted_iff lower namesakes wanted twiceImported reportedTwice reportedOnce
    secondReport secondWrite wanted_fresh run_reportedOnce write_secondReport step_secondReport

end Blocklist

end PlexManager
