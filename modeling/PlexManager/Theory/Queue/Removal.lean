import PlexManager.Theory.Queue.Ownership

/-!
# Removing the torrent, or not

A removal cannot be taken back, so the protocol guards it twice over. A call
that keeps the torrent must not be overtaken by a removal: its registration is
refused while one is unsettled, and from then on its claim, and later its
marker, bar every other actor. A call that removes must not complete the row
without having tried.

Both guarantees have a gap, and both gaps are calls that have lost the claim. A
call that was superseded still restamps a row it adopts, so a call that keeps
the torrent can put its marker over a row whose torrent is already gone
(`kept_after_delete`). And a call that finds itself superseded skips its
removal but not its terminal swap, which compares only the marker: as long as
the newer call has not restamped, the row completes under a marker that asked
for the removal and nobody attempted it (`removal_skipped`). So it is the newer
call's restamp that a removing call without a claim has to wait for.

## Theorems

* `removal_physics`, `no_skipped_removal`: The guarantees over all runs whose
  steps meet the conditions.
* `kept_after_delete`, `removal_skipped`: Runs in which they fail.
-/

namespace PlexManager

namespace QueueProtocol

open DownloadState Interleaving Transition

/-! ### Events -/

/-- What a step of this actor that logs the event has found. -/
def Explains (s : Shared) (a : Actor) (c : Choice) : Event → Prop
  | .registered _ _ => s.removalsInFlight = 0 ∧
      ∀ claim, s.claim = some claim → claim.removalInFlight = false
  | .stamped _ => True
  | .deleteStarted =>
      (∃ args token, a = .call args (.stamped token) ∧ args.removeTorrent = true ∧
        ownsOperatorClaim token s = true) ∨
      ∃ completion, a = .cycle (.reproved completion true)
  | .completed reason _ by_ => s.row.status = .failedPending ∧ s.row.failedReason = reason ∧
      ∀ token args, by_ = .call token args → ∃ marker attempts attempted,
        a = .call args (.completing token marker attempts attempted) ∧ c.outcome = .ok ∧
          reason = some (.marker marker)

variable {s s' : Shared} {args : MarkFailedArgs} {e : Event} {c : Choice} {pc pc' : CallPc}
  {w : World} {a : Actor} {log : List Event}

theorem cons_ne_of_eq {log' : List Event} (h : log' = log) : log' ≠ e :: log := by
  rw [h]
  intro heq
  have := congrArg List.length heq
  simp at this

theorem event_of_callMove (h : CallMove args c s pc s' pc') (hlog : s'.log = e :: s.log) :
    Explains s (.call args pc) c e := by
  cases h with
  | quit | load | miss | readopt | restampMiss | reread | skipDelete | deleted | unrecorded
  | retry | abandon | record => exact absurd hlog (cons_ne_of_eq rfl)
  | register hgrd hcl hpc =>
    have he : e = .registered s.nextToken args.flags := (List.cons.inj hlog).1.symm
    rw [he]
    exact ⟨hgrd, hcl⟩
  | stamp | restamp =>
    rw [← (List.cons.inj hlog).1]
    trivial
  | @startDelete token hrem howns =>
    rw [← (List.cons.inj hlog).1]
    exact .inl ⟨args, token, rfl, hrem, howns⟩
  | @complete token marker attempts attempted hc hst hwhy =>
    rw [← (List.cons.inj hlog).1]
    refine ⟨hst, rfl, ?_⟩
    intro token' args' hby
    rcases hby with ⟨rfl, rfl⟩
    exact ⟨marker, attempts, attempted, rfl, hc, hwhy⟩
  | @release token =>
    refine absurd hlog (cons_ne_of_eq ?_)
    unfold releaseOperatorClaim
    split
    · rfl
    · rfl

theorem event_of_cycleMove {pc pc' : CyclePc} (c : Choice) (h : CycleMove s pc s' pc')
    (hlog : s'.log = e :: s.log) : Explains s (.cycle pc) c e := by
  cases h with
  | @startDelete completion =>
    rw [← (List.cons.inj hlog).1]
    exact .inr ⟨completion, rfl⟩
  | complete hst hwhy =>
    rw [← (List.cons.inj hlog).1]
    exact ⟨hst, rfl, fun token args hby => absurd hby nofun⟩
  | @finish guarded =>
    refine absurd hlog (cons_ne_of_eq ?_)
    cases guarded with
    | true | false => rfl
  | _ => exact absurd hlog (cons_ne_of_eq rfl)

theorem event_of_step {w' : World} {action : Action} (hstep : step w action = some w')
    (hlog : w'.shared.log = e :: w.shared.log) :
    ∃ i c a, action = .act i c ∧ w.actors[i]? = some a ∧ Explains w.shared a c e := by
  cases action with
  | markFailed | reconcileAndList | healFailedPendingWithoutClient =>
    rw [← Option.some.inj hstep] at hlog
    exact absurd hlog (cons_ne_of_eq rfl)
  | act i c =>
    rcases World.act_eq_some hstep with ⟨a, before, after, ha, -, rfl⟩
    refine ⟨i, c, a, rfl, ha, ?_⟩
    cases a with
    | call args pc => exact event_of_callMove (callMove args c w.shared pc) hlog
    | cycle pc => exact event_of_cycleMove c (cycleMove c w.shared pc) hlog

/-! ### Keeping the torrent -/

/-- A removal has started since the token was registered. -/
def deletedSince (token : Nat) : List Event → Bool
  | [] => false
  | .registered t _ :: older => if t = token then false else deletedSince token older
  | .deleteStarted :: _ => true
  | .stamped _ :: older => deletedSince token older
  | .completed _ _ _ :: older => deletedSince token older

def KeepRow (row : DownloadRow) : Prop :=
  row.status = .failedPending ∧ ∃ m, row.failedReason = some (.marker m) ∧ m.remove = .no

/-- The actor has started a removal whose consequence has not settled. -/
def Actor.deleteUnsettled : Actor → Bool
  | .call _ (.removing _) | .call _ (.recording _) => true
  | .call _ (.completing _ _ _ attempted) => attempted
  | .cycle (.deleting _) | .cycle (.recording _) => true
  | .cycle (.completing _ _ guarded) | .cycle (.swapping _ _ guarded) => guarded
  | _ => false

/-- What a step does beside calls that keep the torrent. When one registers, no
    removal is unsettled. No removal starts while one holds the claim or its
    marker stands in the row. And a row completed under such a marker has seen
    no removal since the call registered. -/
structure RemovalPhysics (w w' : World) : Prop where
  registered : ∀ token flags, w'.shared.log = .registered token flags :: w.shared.log →
    flags.removeTorrent = false → ∀ a ∈ w.actors, a.deleteUnsettled = false
  started : w'.shared.log = .deleteStarted :: w.shared.log →
    (∀ claim, w.shared.claim = some claim → claim.flags.removeTorrent = true) ∧
      ¬ KeepRow w.shared.row
  completed : ∀ m wrote by_,
    w'.shared.log = .completed (some (.marker m)) wrote by_ :: w.shared.log →
    m.remove = .no → deletedSince m.nonce w.shared.log = false

/-- A step that is not a restamp landing for a call that keeps the torrent and
    no longer owns the claim. -/
def keepRestampsOwned (c : Choice) (s : Shared) : Actor → Bool
  | .call args (.restamping token observed) =>
      args.removeTorrent || ownsOperatorClaim token s ||
        !(c.outcome = .ok && s.row.status = .failedPending && s.row.failedReason = observed)
  | _ => true

/-- No removal has started since a claim that is not removing was registered,
    or since the call whose marker keeps the torrent was. -/
structure KeepOk (s : Shared) : Prop where
  claim : ∀ claim, s.claim = some claim → claim.removalInFlight = false →
    deletedSince claim.token s.log = false
  row : ∀ m, s.row.status = .failedPending → s.row.failedReason = some (.marker m) →
    m.remove = .no → deletedSince m.nonce s.log = false

/-- An actor about to start its removal looks at no marker that declines it. -/
def KeepHere (s : Shared) : Actor → Prop
  | .call args (.stamped token) => args.removeTorrent = true → ownsOperatorClaim token s = true →
      ¬ KeepRow s.row
  | .cycle (.reproved _ true) => ¬ KeepRow s.row
  | _ => True

theorem deletedSince_of_untouched (token : Nat)
    (h : ∀ e ∈ log, ∃ t flags, e = .registered t flags) : deletedSince token log = false := by
  induction log with
  | nil => rfl
  | cons e older ih =>
    rcases h e List.mem_cons_self with ⟨t, flags, rfl⟩
    unfold deletedSince
    split
    · rfl
    · exact ih fun e he => h e (List.mem_cons_of_mem _ he)

theorem keep_of_stamped {token : Nat}
    (h : KeepRow (stampedWith args token s).row) : args.removeTorrent = false := by
  rcases h with ⟨-, m, hm, hno⟩
  simp only [stampedWith, Option.some.injEq, FailedReason.marker.injEq] at hm
  rw [← hm] at hno
  cases hrem : args.removeTorrent with
  | false => rfl
  | true => simp [operatorFailMarker, MarkFailedArgs.flags, hrem] at hno

theorem not_keepRow_recorded {m : FailMarker} (h : m.remove = .done) :
    ¬ KeepRow (recordedWith m s).row := by
  rintro ⟨-, m', hm', hno⟩
  simp only [recordedWith, Option.some.injEq, FailedReason.marker.injEq] at hm'
  rw [← hm', h] at hno
  exact absurd hno (by decide)

-- A row comes under a marker that keeps the torrent only by a stamp of such a call, on a row
-- that is not pending yet or with the claim in its hands.
theorem keepRow_of_callMove (hok : CallOk args s pc)
    (hcond : keepRestampsOwned c s (.call args pc) = true) (h : CallMove args c s pc s' pc')
    (hkeep : KeepRow s'.row) :
    KeepRow s.row ∨ ¬ Doomed s.row ∨ ∃ t, pc.token = some t ∧ ownsOperatorClaim t s = true := by
  cases h with
  | quit | load | miss | readopt | restampMiss | reread | skipDelete | deleted | unrecorded
  | retry | abandon | register | startDelete => exact .inl hkeep
  | @stamp token status hst =>
    refine .inr (.inl fun hdoom => ne_failed_of_legal hok.here ?_)
    rw [← hst]
    exact hdoom
  | @restamp token observed hc hst hwhy =>
    have hargs := keep_of_stamped hkeep
    have howns : ownsOperatorClaim token s = true := by
      simpa [keepRestampsOwned, hargs, hc, hst, hwhy] using hcond
    exact .inr (.inr ⟨token, rfl, howns⟩)
  | record hst hwhy => exact absurd hkeep (not_keepRow_recorded rfl)
  | complete hc hst hwhy => exact absurd hkeep.1 nofun
  | @release token =>
    refine .inl ?_
    unfold releaseOperatorClaim at hkeep
    split at hkeep
    · exact hkeep
    · exact hkeep

theorem keepRow_of_cycleMove {pc pc' : CyclePc} (hs : SharedOk s) (hok : CycleOk s pc)
    (h : CycleMove s pc s' pc') (hkeep : KeepRow s'.row) : KeepRow s.row := by
  cases h with
  | transition hst hpc =>
    have hlive : ¬ Doomed s.row := not_doomed_of_active (by rw [hst]; exact hok.2.1)
    have hprs := (hs.untouched hlive).1
    rcases hkeep with ⟨-, m, hm, -⟩
    rw [(parse_eq_some_iff _ m).mpr hm] at hprs
    simp at hprs
  | envStamp hst hwhy =>
    rcases hkeep with ⟨-, m, hm, -⟩
    simp at hm
  | record hm hst hwhy =>
    exact absurd hkeep (not_keepRow_recorded (removalDoneMarker_done hm))
  | complete hst hwhy => exact absurd hkeep.1 nofun
  | @finish guarded =>
    cases guarded with
    | true | false => exact hkeep
  | _ => exact hkeep

theorem keepOk_of_log (h : KeepOk s) (hcl : s'.claim = s.claim)
    (hlog : ∀ n, deletedSince n s.log = false → deletedSince n s'.log = false)
    (hrow : KeepRow s'.row → s'.row = s.row) : KeepOk s' where
  claim := fun claim hc hfly => hlog _ (h.claim claim (by rw [← hcl]; exact hc) hfly)
  row := by
    intro m hst hm hno
    have heq := hrow ⟨hst, m, hm, hno⟩
    rw [heq] at hst hm
    exact hlog _ (h.row m hst hm hno)

theorem keep_call (hs : SharedOk s) (hok : CallOk args s pc) (hkeep : KeepOk s)
    (hhere : KeepHere s (.call args pc)) (hcond : keepRestampsOwned c s (.call args pc) = true)
    (h : CallMove args c s pc s' pc') : KeepOk s' ∧ KeepHere s' (.call args pc') := by
  cases h with
  | quit | load | miss | restampMiss | reread | skipDelete | deleted | retry | abandon =>
    exact ⟨hkeep, trivial⟩
  | readopt hpc hst | unrecorded hpc => exact ⟨hkeep, trivial⟩
  | register hgrd hcl hpc =>
    have hlog : ∀ n, deletedSince n s.log = false →
        deletedSince n (registeredWith args.flags s).log = false := by
      intro n hn
      simp only [registeredWith, deletedSince]
      split
      · rfl
      · exact hn
    refine ⟨⟨?_, ?_⟩, ?_⟩
    · intro claim hc _
      simp only [registeredWith, Option.some.injEq] at hc
      rw [← hc]
      simp [registeredWith, deletedSince]
    · exact fun m hst hm hno => hlog _ (hkeep.row m hst hm hno)
    · rcases hpc with rfl | rfl | ⟨rfl, -⟩
      · trivial
      · trivial
      · trivial
  | @stamp token status hst =>
    have hlive : ¬ Doomed s.row := by
      intro hdoom
      refine ne_failed_of_legal hok.here ?_
      rw [← hst]
      exact hdoom
    refine ⟨⟨hkeep.claim, ?_⟩, fun hrem _ hrow => ?_⟩
    · intro m _ _ _
      have hnone := deletedSince_of_untouched m.nonce (hs.untouched hlive).2
      exact hnone
    · rw [keep_of_stamped hrow] at hrem
      simp at hrem
  | @restamp token observed hc hst hwhy =>
    refine ⟨⟨hkeep.claim, ?_⟩, fun hrem _ hrow => ?_⟩
    · intro m hpend hm hno
      have hargs := keep_of_stamped ⟨hpend, m, hm, hno⟩
      simp only [stampedWith, Option.some.injEq, FailedReason.marker.injEq] at hm
      rw [← hm]
      have howns : ownsOperatorClaim token s = true := by
        simpa [keepRestampsOwned, hargs, hc, hst, hwhy] using hcond
      rcases (ownsOperatorClaim_iff token s).mp howns with ⟨claim, hcl, htok⟩
      -- The claim of a call that keeps the torrent is never flagged.
      have hidle : claim.removalInFlight = false := by
        refine Bool.eq_false_iff.mpr fun hfly => ?_
        have hremoves := hs.removes claim hcl hfly
        rw [hok.claimed token claim rfl hcl htok] at hremoves
        rw [show args.flags.removeTorrent = args.removeTorrent from rfl, hargs] at hremoves
        simp at hremoves
      have hnone := hkeep.claim claim hcl hidle
      rw [htok] at hnone
      exact hnone
    · rw [keep_of_stamped hrow] at hrem
      simp at hrem
  | @startDelete token hrem howns =>
    rcases (ownsOperatorClaim_iff token s).mp howns with ⟨c₀, hc₀, htok⟩
    refine ⟨⟨?_, ?_⟩, trivial⟩
    · intro claim hc hfly
      simp only [markRemovalInFlight, hc₀, Option.map_some, htok, if_true,
        Option.some.injEq] at hc
      rw [← hc] at hfly
      simp at hfly
    · intro m hst hm hno
      exact absurd ⟨hst, m, hm, hno⟩ (hhere hrem howns)
  | record hst hwhy =>
    exact ⟨keepOk_of_log hkeep rfl (fun _ hn => hn)
      (fun hrow => absurd hrow (not_keepRow_recorded rfl)), trivial⟩
  | complete hc hst hwhy =>
    refine ⟨keepOk_of_log hkeep rfl (fun _ hn => hn) ?_, trivial⟩
    intro hrow
    cases hrow.1
  | @release token =>
    unfold releaseOperatorClaim
    split
    · exact ⟨⟨fun claim hc => (by cases hc), hkeep.row⟩, trivial⟩
    · exact ⟨hkeep, trivial⟩

theorem keep_cycle {pc pc' : CyclePc} (hs : SharedOk s) (hok : CycleOk s pc)
    (hheld : (if pc.guarded then 1 else 0) ≤ s.removalsInFlight) (hkeep : KeepOk s)
    (hhere : KeepHere s (.cycle pc)) (h : CycleMove s pc s' pc') :
    KeepOk s' ∧ KeepHere s' (.cycle pc') := by
  cases h with
  | quit | list | healList | residual | heal | plan | detail | light | deleted | check | retry
  | leave | unrecorded hpc => exact ⟨hkeep, trivial⟩
  | pass hfrom hto =>
    rcases hto with ⟨rfl, -⟩ | rfl | rfl
    · trivial
    · trivial
    · trivial
  | transition hst hpc =>
    have hlive : ¬ Doomed s.row := not_doomed_of_active (by rw [hst]; exact hok.2.1)
    refine ⟨⟨hkeep.claim, fun m _ _ _ =>
      deletedSince_of_untouched m.nonce (hs.untouched hlive).2⟩, ?_⟩
    rcases hpc with ⟨-, rfl⟩ | ⟨-, rfl⟩
    · trivial
    · trivial
  | envStamp hst hwhy =>
    refine ⟨keepOk_of_log hkeep rfl (fun _ hn => hn) ?_, trivial⟩
    rintro ⟨-, m, hm, -⟩
    simp at hm
  | guard hcl hrem =>
    exact ⟨keepOk_of_log hkeep rfl (fun _ hn => hn) (fun _ => rfl), trivial⟩
  | reprove unchanged hunch =>
    refine ⟨hkeep, ?_⟩
    cases unchanged with
    | false => trivial
    | true =>
      rintro ⟨-, m, hm, hno⟩
      rw [(hunch rfl).2] at hm
      have howes := hok.2.1 m hm
      rw [hok.2.2] at howes
      simp [FailMarker.removeTorrent, hno] at howes
  | startDelete =>
    refine ⟨⟨?_, ?_⟩, trivial⟩
    · intro claim hc _
      -- The guard is up, so nobody holds a claim.
      have hzero := hs.bars (by rw [show s.claim = some claim from hc]; simp)
      simp only [CyclePc.guarded, if_true] at hheld
      omega
    · intro m hst hm hno
      exact absurd ⟨hst, m, hm, hno⟩ hhere
  | drop => exact ⟨keepOk_of_log hkeep rfl (fun _ hn => hn) (fun _ => rfl), trivial⟩
  | record hm hst hwhy =>
    exact ⟨keepOk_of_log hkeep rfl (fun _ hn => hn)
      (fun hrow => absurd hrow (not_keepRow_recorded (removalDoneMarker_done hm))), trivial⟩
  | complete hst hwhy =>
    refine ⟨keepOk_of_log hkeep rfl (fun _ hn => hn) ?_, trivial⟩
    intro hrow
    cases hrow.1
  | @finish guarded =>
    cases guarded with
    | true => exact ⟨keepOk_of_log hkeep rfl (fun _ hn => hn) (fun _ => rfl), trivial⟩
    | false => exact ⟨hkeep, trivial⟩

theorem keepRow_of_actor (c : Choice) (hs : SharedOk s) (ha : ActorOk s a)
    (hcond : keepRestampsOwned c s a = true) (hkeep : KeepRow (actorStep c s a).1.row) :
    KeepRow s.row ∨ ¬ Doomed s.row ∨ ∃ t, a.token = some t ∧ ownsOperatorClaim t s = true := by
  cases a with
  | call args pc => exact keepRow_of_callMove ha hcond (callMove args c s pc) hkeep
  | cycle pc => exact .inl (keepRow_of_cycleMove hs ha (cycleMove c s pc) hkeep)

-- No step of another actor puts a marker that keeps the torrent under an actor about to remove
-- it: a stamp of such a call would need the claim.
theorem keepHere_frame {b : Actor} (c : Choice) (hs : SharedOk s) (ha : ActorOk s a)
    (hb : ActorOk s b) (hab : ownership.Apart a b) (hwt : a.weight + b.weight ≤ s.removalsInFlight)
    (hcond : keepRestampsOwned c s a = true) (hhere : KeepHere s b) :
    KeepHere (actorStep c s a).1 b := by
  have hleav := leaves_of_actor c ha
  cases b with
  | call args pc =>
    cases pc with
    | stamped token =>
      intro hrem howns hkeep
      rcases (ownsOperatorClaim_iff token _).mp howns with ⟨claim, hcl, htok⟩
      have hlt := (hb.issued token rfl).1
      have hmine : a.token ≠ some token := fun hmine => hab token hmine rfl
      have hbef := hleav.noNewClaim claim hcl (by omega) (by rw [htok]; exact hmine)
      have hownsBefore := (ownsOperatorClaim_iff token s).mpr ⟨claim, hbef, htok⟩
      rcases keepRow_of_actor c hs ha hcond hkeep with hrow | hlive | ⟨t, ht, hownst⟩
      · exact hhere hrem hownsBefore hrow
      · exact hlive hb.here
      · rcases (ownsOperatorClaim_iff t s).mp hownst with ⟨claim', hcl', htok'⟩
        rw [hbef, Option.some.injEq] at hcl'
        rw [← hcl', htok] at htok'
        exact hmine (by rw [htok']; exact ht)
    | _ => trivial
  | cycle pc =>
    cases pc with
    | reproved completion unchanged =>
      cases unchanged with
      | false => trivial
      | true =>
        intro hkeep
        rcases keepRow_of_actor c hs ha hcond hkeep with hrow | hlive | ⟨t, ht, hownst⟩
        · exact hhere hrow
        · exact hlive (hb.2.2.2 rfl)
        · rcases (ownsOperatorClaim_iff t s).mp hownst with ⟨claim, hcl, -⟩
          have hzero := hs.bars (by rw [hcl]; simp)
          simp only [Actor.weight, CyclePc.guarded, if_true] at hwt
          omega
    | _ => trivial

def keeping : Outline Shared Actor := ownership.strengthen KeepOk KeepHere

theorem keeping_sound : keeping.Sound actorStep (fun s a c => keepRestampsOwned c s a = true) := by
  refine ownership_sound.strengthen (fun _ _ _ _ => trivial) ?_ ?_
  · intro s a c hs ha hheld hcond hkeep hhere
    cases a with
    | call args pc => exact keep_call hs ha hkeep hhere hcond (callMove args c s pc)
    | cycle pc => exact keep_cycle hs ha hheld hkeep hhere (cycleMove c s pc)
  · intro s a b c hs ha hb hab hwt hcond _ _ hhere
    exact keepHere_frame c hs ha hb hab hwt hcond hhere

theorem keeping_init (h : Init w) : keeping.Holds w := by
  have hbase := ownership_init h
  refine ⟨⟨hbase.shared, ?_⟩, ?_, hbase.apart, hbase.account⟩
  · rcases h with ⟨⟨row, hsh, -, hpend, -⟩, -⟩
    rw [hsh]
    exact ⟨fun claim hc => absurd hc nofun, fun m hst => absurd hst hpend⟩
  · rw [h.2]
    exact fun a ha => absurd ha nofun

theorem keeping_new (s : Shared) (a : Actor)
    (h : (∃ args, a = .call args .start) ∨ a = .cycle .start ∨ a = .cycle .healStart) :
    keeping.Local s a ∧ (∀ b, keeping.Apart a b) ∧ keeping.weight a = 0 := by
  have hbase := ownership_new s a h
  refine ⟨⟨hbase.1, ?_⟩, hbase.2⟩
  rcases h with ⟨args, rfl⟩ | rfl | rfl
  · trivial
  · trivial
  · trivial

theorem barred_of_unsettled (h : ownership.Holds w) (ha : a ∈ w.actors)
    (hunset : a.deleteUnsettled = true) :
    w.shared.removalsInFlight ≠ 0 ∨
      ∃ claim, w.shared.claim = some claim ∧ claim.removalInFlight = true := by
  have hloc := h.locals a ha
  have hflagged : ∀ token, Removing w.shared token →
      ∃ claim, w.shared.claim = some claim ∧ claim.removalInFlight = true := by
    rintro token ⟨⟨claim, hcl, -, hfly⟩, -⟩
    exact ⟨claim, hcl, hfly⟩
  have hgrd : a.weight = 1 → w.shared.removalsInFlight ≠ 0 := by
    have hle : a.weight ≤ w.shared.removalsInFlight := by
      rw [show w.shared.removalsInFlight = (w.actors.map Actor.weight).sum from h.account.symm]
      exact Outline.weight_le_sum Actor.weight ha
    omega
  cases a with
  | call args pc =>
    have hhere := CallOk.here hloc
    cases pc with
    | removing token | recording token => exact .inr (hflagged token hhere.2)
    | completing token marker attempts attempted =>
      exact .inr (hflagged token (hhere.2.2 hunset))
    | _ => simp [Actor.deleteUnsettled] at hunset
  | cycle pc =>
    refine .inl (hgrd ?_)
    cases pc with
    | deleting completion | recording completion => rfl
    | completing completion attempts guarded | swapping completion attempts guarded =>
      rw [show guarded = true from hunset]
      rfl
    | _ => simp [Actor.deleteUnsettled] at hunset

/-- The removal-physics guarantee: in every run in which no superseded call
    restamps with a marker that keeps the torrent, every step respects the calls
    that keep it. -/
theorem removal_physics (w₀ w w' : World) (actions : List Action) (action : Action)
    (hinit : Init w₀)
    (hmeet : StepsMeet step (fun w action => everyAct keepRestampsOwned w action = true) w₀
      actions)
    (hrun : run step w₀ actions = some w) (hstep : step w action = some w') :
    RemovalPhysics w w' := by
  have hhold : keeping.Holds w :=
    holds_of_meeting_run keeping_sound keeping_new (keeping_init hinit) hmeet hrun
  have hbase : ownership.Holds w := hhold.base
  have hs : SharedOk w.shared := hbase.shared
  have hkeep : KeepOk w.shared := hhold.shared.2
  refine ⟨?_, ?_, ?_⟩
  · intro token flags hlog _ a ha
    rcases event_of_step hstep hlog with ⟨i, c, actor, -, -, hgrd, hcl⟩
    refine Bool.eq_false_iff.mpr fun hunset => ?_
    rcases barred_of_unsettled hbase ha hunset with hup | ⟨claim, hc, hfly⟩
    · exact hup hgrd
    · rw [hcl claim hc] at hfly
      simp at hfly
  · intro hlog
    rcases event_of_step hstep hlog with ⟨i, c, actor, -, hact, hev⟩
    have hmem := List.mem_of_getElem? hact
    have hloc := hhold.locals actor hmem
    rcases hev with ⟨args, token, rfl, hrem, howns⟩ | ⟨completion, rfl⟩
    · refine ⟨?_, hloc.2 hrem howns⟩
      rcases (ownsOperatorClaim_iff token _).mp howns with ⟨claim, hcl, htok⟩
      intro claim' hcl'
      rw [hcl, Option.some.injEq] at hcl'
      rw [← hcl', CallOk.claimed hloc.1 token claim rfl hcl htok]
      exact hrem
    · refine ⟨?_, hloc.2⟩
      intro claim hcl
      -- The cycle holds the guard, so there is no claim.
      have hzero := hs.bars (by rw [hcl]; simp)
      have hle : Actor.weight (.cycle (.reproved completion true)) ≤ w.shared.removalsInFlight := by
        rw [show w.shared.removalsInFlight = (w.actors.map Actor.weight).sum from
          hbase.account.symm]
        exact Outline.weight_le_sum Actor.weight hmem
      simp only [Actor.weight, CyclePc.guarded, if_true] at hle
      omega
  · intro m wrote by_ hlog hno
    rcases event_of_step hstep hlog with ⟨i, c, actor, -, -, hst, hwhy, -⟩
    exact hkeep.row m hst hwhy hno

/-- A call that keeps the torrent and one that removes it read the row while it
    is downloading. The removing one is newer, stamps, and starts its removal;
    the other lost its swap, adopts the newer marker, restamps and goes on to
    its terminal swap. -/
def keeperReadopts : List Action :=
  [.markFailed { blocklist := false, removeTorrent := false },
    .markFailed { blocklist := false, removeTorrent := true },
    .act 0 {}, .act 1 {}, .act 0 {}, .act 1 {}, .act 1 {}, .act 0 {}, .act 0 {},
    .act 1 {}, .act 0 {}, .act 0 {}]

/-- The row is completed under a marker that keeps a torrent already removed. -/
theorem kept_after_delete :
    Init calm ∧ ∃ w w', run step calm keeperReadopts = some w ∧
      step w (.act 0 {}) = some w' ∧ ¬ RemovalPhysics w w' := by
  refine ⟨calm_init, _, _, rfl, rfl, ?_⟩
  intro h
  have hkept := h.completed (operatorFailMarker ⟨false, false⟩ 1) false
    (.call 1 { blocklist := false, removeTorrent := false }) rfl rfl
  exact absurd hkept (by decide)

/-- A removing call stamps, and a newer one that keeps the torrent supersedes
    it, restamps and goes on to its terminal swap. -/
def keeperSupersedes : List Action :=
  [.markFailed { blocklist := false, removeTorrent := true },
    .markFailed { blocklist := false, removeTorrent := false },
    .act 0 {}, .act 1 {}, .act 0 {}, .act 0 {}, .act 1 {}, .act 1 {}, .act 1 {}, .act 1 {},
    .act 0 {}, .act 0 {}, .act 1 {}]

theorem removal_physics_of_supersession :
    ∃ w w', run step calm keeperSupersedes = some w ∧ step w (.act 1 {}) = some w' ∧
      w'.shared.row.status = .failed ∧ RemovalPhysics w w' := by
  refine ⟨_, _, rfl, rfl, rfl, ?_⟩
  exact removal_physics calm _ _ keeperSupersedes (.act 1 {}) calm_init (by decide) rfl rfl

/-! ### Removing the torrent -/

def RemovedFirst : List Event → Prop
  | [] => True
  | .completed _ _ (.call _ args) :: older =>
      (args.removeTorrent = true → Event.deleteStarted ∈ older) ∧ RemovedFirst older
  | _ :: older => RemovedFirst older

/-- A step that is not the terminal swap of a removing call that no longer owns the claim,
    over a row in which the marker it stamped still stands. -/
def restampedFirst (c : Choice) (s : Shared) : Actor → Bool
  | .call args (.completing token _ _ _) =>
      !args.removeTorrent || ownsOperatorClaim token s ||
        !(c.outcome = .ok && s.row.status = .failedPending &&
          s.row.failedReason = some (.marker (operatorFailMarker args.flags token)))
  | _ => true

/-- A call that completes without an attempt at the removal has its first marker still,
    and if it wanted the removal it has lost the claim. -/
def TurnedAway (s : Shared) : Actor → Prop
  | .call args (.completing token marker _ false) =>
      marker = operatorFailMarker args.flags token ∧
        (args.removeTorrent = true → ownsOperatorClaim token s = false)
  | _ => True

theorem turnedAway_call (haway : TurnedAway s (.call args pc)) (h : CallMove args c s pc s' pc') :
    TurnedAway s' (.call args pc') := by
  cases h with
  | skipDelete hlost => exact ⟨rfl, hlost⟩
  | @retry token marker attempts attempted =>
    cases attempted with
    | true => trivial
    | false => exact haway
  | register hgrd hcl hpc =>
    rcases hpc with rfl | rfl | ⟨rfl, -⟩
    · trivial
    · trivial
    · trivial
  | _ => trivial

theorem turnedAway_frame {b : Actor} (c : Choice) (ha : ActorOk s a) (hb : ActorOk s b)
    (hab : ownership.Apart a b) (haway : TurnedAway s b) :
    TurnedAway (actorStep c s a).1 b := by
  have hleav := leaves_of_actor c ha
  cases b with
  | cycle pc => trivial
  | call args pc =>
    cases pc with
    | completing token marker attempts attempted =>
      cases attempted with
      | true => trivial
      | false =>
        refine ⟨haway.1, fun hrem => Bool.eq_false_iff.mpr fun howns => ?_⟩
        rcases (ownsOperatorClaim_iff token _).mp howns with ⟨claim, hcl, htok⟩
        have hlt := (hb.issued token rfl).1
        have hbef := hleav.noNewClaim claim hcl (by omega) fun hmine =>
          hab token (by rw [hmine, htok]) rfl
        have hlost := haway.2 hrem
        rw [(ownsOperatorClaim_iff token s).mpr ⟨claim, hbef, htok⟩] at hlost
        exact nomatch hlost
    | _ => trivial

theorem removedFirst_call (hok : CallOk args s pc) (hfst : RemovedFirst s.log)
    (haway : TurnedAway s (.call args pc)) (hcond : restampedFirst c s (.call args pc) = true)
    (h : CallMove args c s pc s' pc') : RemovedFirst s'.log := by
  cases h with
  | quit | load | miss | readopt | restampMiss | reread | skipDelete | deleted | unrecorded
  | retry | abandon | register | stamp | restamp | startDelete | record => exact hfst
  | @complete token marker attempts attempted hc hst hwhy =>
    refine ⟨fun hrem => ?_, hfst⟩
    cases attempted with
    | true => exact (hok.here.2.2 rfl).2
    | false =>
      -- Turned away, and its marker still there: the newer call has not restamped.
      rw [haway.1] at hwhy
      simp [restampedFirst, hrem, haway.2 hrem, hc, hst, hwhy] at hcond
  | @release token =>
    unfold releaseOperatorClaim
    split
    · exact hfst
    · exact hfst

theorem removedFirst_cycle {pc pc' : CyclePc} (hfst : RemovedFirst s.log)
    (h : CycleMove s pc s' pc') : RemovedFirst s'.log := by
  cases h with
  | @finish guarded =>
    cases guarded with
    | true | false => exact hfst
  | _ => exact hfst

def removing : Outline Shared Actor :=
  ownership.strengthen (fun s => RemovedFirst s.log) TurnedAway

theorem removing_sound : removing.Sound actorStep (fun s a c => restampedFirst c s a = true) := by
  refine ownership_sound.strengthen (fun _ _ _ _ => trivial) ?_ ?_
  · intro s a c _ ha _ hcond hfst haway
    cases a with
    | call args pc =>
      exact ⟨removedFirst_call ha hfst haway hcond (callMove args c s pc),
        turnedAway_call haway (callMove args c s pc)⟩
    | cycle pc => exact ⟨removedFirst_cycle hfst (cycleMove c s pc), trivial⟩
  · intro s a b c _ ha hb hab _ _ _ _ haway
    exact turnedAway_frame c ha hb hab haway

/-- The no-skipped-removal guarantee: in every run in which no removing call that lost the
    claim comes to its terminal swap before the newer call has restamped, every completion
    by a removing call has a removal before it. -/
theorem no_skipped_removal (w₀ w : World) (actions : List Action) (hinit : Init w₀)
    (hmeet : StepsMeet step (fun w action => everyAct restampedFirst w action = true) w₀ actions)
    (hrun : run step w₀ actions = some w) : RemovedFirst w.shared.log := by
  have hbase := ownership_init hinit
  have hnil : RemovedFirst w₀.shared.log := by
    rcases hinit with ⟨⟨row, hsh, -⟩, -⟩
    rw [hsh]
    trivial
  have hnobody : ∀ a, a ∉ w₀.actors := by
    rw [hinit.2]
    exact fun a ha => nomatch ha
  have hbeg : removing.Holds w₀ :=
    ⟨⟨hbase.shared, hnil⟩, fun a ha => absurd ha (hnobody a), hbase.apart, hbase.account⟩
  have hnew : ∀ s a, ((∃ args, a = .call args .start) ∨ a = .cycle .start ∨
      a = .cycle .healStart) → TurnedAway s a := by
    rintro s a (⟨args, rfl⟩ | rfl | rfl)
    · trivial
    · trivial
    · trivial
  have hhold := holds_of_meeting_run removing_sound
    (fun s a ha => ⟨⟨(ownership_new s a ha).1, hnew s a ha⟩, (ownership_new s a ha).2⟩)
    hbeg hmeet hrun
  exact hhold.shared.2

/-- A removing call stamps; a newer one registers before the first reaches its
    removal, and has not stamped when the first reaches its terminal swap. -/
def removerSuperseded : List Action :=
  [.markFailed { blocklist := false, removeTorrent := true },
    .markFailed { blocklist := false, removeTorrent := true },
    .act 0 {}, .act 1 {}, .act 0 {}, .act 0 {}, .act 1 {}, .act 0 {}, .act 0 {}]

/-- The row is completed for a call that asked for the removal, and nobody has
    attempted it. -/
theorem removal_skipped :
    Init calm ∧ ∃ w, run step calm removerSuperseded = some w ∧
      w.shared.row.status = .failed ∧ ¬ RemovedFirst w.shared.log := by
  refine ⟨calm_init, _, rfl, rfl, ?_⟩
  intro h
  exact absurd (h.1 rfl) (by decide)

def removerAlone : List Action :=
  [.markFailed { blocklist := false, removeTorrent := true },
    .act 0 {}, .act 0 {}, .act 0 {}, .act 0 {}, .act 0 {}, .act 0 {}, .act 0 {}]

theorem no_skipped_removal_of_alone :
    ∃ w, run step calm removerAlone = some w ∧ w.shared.row.status = .failed ∧
      RemovedFirst w.shared.log := by
  refine ⟨_, rfl, rfl, ?_⟩
  exact no_skipped_removal calm _ removerAlone calm_init (by decide) rfl

end QueueProtocol

end PlexManager
