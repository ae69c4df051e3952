import PlexManager.Core.ServiceSettings

/-!
# A stored credential stays where it was entered

A credential is warranted at a base when some save has submitted it and has left its
service at that base. What is stored is warranted, and a save keeps it so: where it does
not submit the credential itself, the checks let it change the address within the base
only. What a save tries before it writes is the pair it is about to store, or the pair that
is stored.

A client is built from an address and a credential that were read one after the other. The
pair is warranted if it was stored at one moment, and the two readings are enough for that
where the credential is still the one that stood beside the address, or the base is still
the one of the address. Where neither is so, a credential that was entered for one server
can be sent to another.

## Main definitions

* `Warranted`, `World.Confined`: What may be sent, and that nothing else is.
* `World.Terms`: No reader finds another base and another credential in between.
* `Inv`: The invariant.

## Theorems

* `credentials_stay`: Runs on these terms are confined.
* `credential_strays`: Without them a run need not be.
-/

namespace PlexManager

namespace ServiceSettings

open TextCodec SafeFetch Transition

/-! ### What may be sent -/

/-- An empty credential is one for the download client only. -/
def usable : Service → String → Bool
  | .qbittorrent, _ => true
  | _, credential => credential ≠ ""

section
variable (parse : String → Option Text)

/-- The save has submitted the credential, and leaves its service at the base. -/
def Save.offers (save : Save) (service : Service) (credential : String) (base : Text) : Prop :=
  save.body.submittedSecret service = some credential ∧
    baseOf parse (save.stored.value (.url service)) = some base

instance (save : Save) (service : Service) (credential : String) (base : Text) :
    Decidable (save.offers parse service credential base) :=
  inferInstanceAs (Decidable (_ ∧ _))

def Warranted (saves : List Save) (service : Service) (credential : String) (base : Text) : Prop :=
  ∃ save ∈ saves, save.offers parse service credential base

instance (saves : List Save) (service : Service) (credential : String) (base : Text) :
    Decidable (Warranted parse saves service credential base) :=
  inferInstanceAs (Decidable (∃ save ∈ saves, _))

variable (w : World) (stored : Stored)

/-- Every credential that was sent is warranted where it has gone, by a save that is over or
    by the one that tries it. -/
def World.Confined : Prop :=
  ∀ r ∈ w.requests, Warranted parse (w.saves ++ r.own.toList) r.service r.credential r.base

instance (w : World) : Decidable (w.Confined parse) :=
  inferInstanceAs (Decidable (∀ r ∈ w.requests, _))

def Stored.Sound (saves : List Save) : Prop :=
  ∀ service credential base, stored.value (.secret service) = some credential →
    usable service credential = true → baseOf parse (stored.value (.url service)) = some base →
    Warranted parse saves service credential base

/-- The credential that is about to be read is the one that stood beside the address, or the
    address that is stored has the same base. -/
def Resolver.steady (r : Resolver) (service : Service) : Bool :=
  (stored.value (.secret service)).all fun credential =>
    !usable service credential || r.beside service = some credential ||
      (baseOf parse (r.got (.url service))).all fun base =>
        baseOf parse (stored.value (.url service)) = some base

/-- No reader finds another base and another credential than those beside what it has
    read. -/
def World.terms : Event → Bool
  | .read k => (w.resolvers[k]?).all fun r => match r.todo with
      | .secret service :: _ => r.steady parse w.stored service
      | _ => true
  | _ => true

def World.Terms (e : Event) : Prop := w.terms parse e = true

instance (w : World) (e : Event) : Decidable (w.Terms parse e) :=
  inferInstanceAs (Decidable (_ = true))

structure World.Start : Prop where
  stored : w.stored.Sound parse w.saves
  holder : w.holder = none
  puts : w.puts = []
  resolvers : w.resolvers = []
  cached : ∀ service, w.cached service = none
  clients : w.clients = []
  requests : w.requests = []

/-! ### The invariant -/

structure Passed (body : SettingsUpdate) : Prop where
  reentry : rejectChangedBaseStoredCredentialReuse parse stored body = none
  repoint : ∀ error, verifyPlexRepoint parse stored body ≠ .error error

/-- Who is past the lock holds it. -/
def Phase.active : Phase → Bool
  | .waiting => false
  | .saved => false
  | .refused _ => false
  | _ => true

/-- A save in progress: the checks it is past, and the pair that it tries. -/
structure Put.Sound (i : Nat) (p : Put) : Prop where
  holds : p.phase.active = true → w.holder = some i
  checked : p.phase = .checked →
    rejectChangedBaseStoredCredentialReuse parse w.stored p.body = none
  probing : ∀ probe, p.phase = .probing probe → Passed parse w.stored p.body ∧
    ∀ base, parse probe.url = some base →
      Warranted parse (w.saves ++ [⟨p.body, w.stored.write p.body .unchanged⟩]) .plex
        probe.token base
  ready : ∀ change, p.phase = .ready change → Passed parse w.stored p.body

def Ordered : List Field → Prop
  | [] => True
  | .secret service :: rest => Field.url service ∉ rest ∧ Ordered rest
  | _ :: rest => Ordered rest

/-- What a reader has found: beside each address a credential that is warranted there, and
    so is the one it has read. -/
structure Resolver.Sound (saves : List Save) (r : Resolver) : Prop where
  beside : ∀ service credential base, r.beside service = some credential →
    usable service credential = true → baseOf parse (r.got (.url service)) = some base →
    Warranted parse saves service credential base
  got : ∀ service credential base, r.got (.secret service) = some credential →
    usable service credential = true → baseOf parse (r.got (.url service)) = some base →
    Warranted parse saves service credential base
  fresh : ∀ service, Field.url service ∈ r.todo → r.got (.secret service) = none
  ordered : Ordered r.todo

def Client.Sound (saves : List Save) (c : Client) : Prop :=
  Warranted parse saves c.service c.credential c.base

structure Inv : Prop where
  stored : w.stored.Sound parse w.saves
  puts : ∀ (i : Nat) p, w.puts[i]? = some p → p.Sound parse w i
  resolvers : ∀ r ∈ w.resolvers, r.Sound parse w.saves
  cached : ∀ service c, w.cached service = some c → c.client.Sound parse w.saves
  clients : ∀ c ∈ w.clients, c.Sound parse w.saves
  confined : w.Confined parse

end

variable {parse : String → Option Text}

variable {w w' : World} {i : Nat} {p : Put} {stored : Stored} {r : Resolver} {body : SettingsUpdate}
  {service : Service} {credential url : String} {base : Text} {answer : Except AppError String}

theorem Warranted.mono {saves saves' : List Save}
    (h : Warranted parse saves service credential base)
    (hsub : ∀ save ∈ saves, save ∈ saves') : Warranted parse saves' service credential base := by
  rcases h with ⟨save, hmem, hoffers⟩
  exact ⟨save, hsub save hmem, hoffers⟩

theorem Warranted.later {saves : List Save} (h : Warranted parse saves service credential base)
    (more : List Save) : Warranted parse (saves ++ more) service credential base :=
  h.mono fun _ hmem => List.mem_append_left more hmem

/-! ### The checks of a save -/

theorem sameServiceBase_iff (left right : String) :
    sameServiceBase parse left right = true ↔
      ∃ base, parse left = some base ∧ parse right = some base := by
  unfold sameServiceBase
  split
  · rename_i l r hl hr
    rw [hl, hr, decide_eq_true_eq]
    constructor
    · intro heq
      exact ⟨l, rfl, by rw [heq]⟩
    · intro hboth
      rcases hboth with ⟨base, hleft, hright⟩
      exact (Option.some.inj hleft).trans (Option.some.inj hright).symm
  · rename_i hnot
    constructor
    · intro h
      contradiction
    · intro hboth
      rcases hboth with ⟨base, hleft, hright⟩
      exact absurd hright (hnot base base hleft)

theorem baseOf_of_any {storedUrl : Option String}
    (hsame : (storedUrl.any fun u => u ≠ "" && sameServiceBase parse url u) = true)
    (hbase : parse url = some base) : baseOf parse storedUrl = some base := by
  rcases Option.any_eq_true .. |>.mp hsame with ⟨u, hu, hboth⟩
  have hparses := (sameServiceBase_iff url u).mp (Bool.and_eq_true .. |>.mp hboth).2
  rcases hparses with ⟨b, hurl, hstored⟩
  have heq : b = base := Option.some.inj (hurl.symm.trans hbase)
  rw [hu]
  exact heq ▸ hstored

-- A save that keeps a stored credential keeps its base: the indexer and the download client.
theorem base_of_reentry {p : Protected} (hp : p ∈ protectedCredentials)
    (hpass : rejectChangedBaseStoredCredentialReuse parse stored body = none)
    (hnil : parse "" = none) (hurl : body.value (.url p.service) = some url)
    (hbase : parse url = some base) (hkept : body.submittedSecret p.service = none)
    (hstored : stored.value (.secret p.service) = some credential)
    (huse : p.emptySecretIsConfigured = true ∨ credential ≠ "") :
    baseOf parse (stored.value (.url p.service)) = some base := by
  have hnone : reusesStored parse stored body p = false := by
    have hfind := Option.map_eq_none_iff.mp hpass
    have hnot := List.find?_eq_none.mp hfind p hp
    simpa using hnot
  have hne : url ≠ "" := by
    intro heq
    rw [heq, hnil] at hbase
    contradiction
  have hexists : (if p.emptySecretIsConfigured = true then
      (stored.value (.secret p.service)).isSome
      else truthy (stored.value (.secret p.service))) = true := by
    rw [hstored]
    split
    · rfl
    · rename_i hconf
      have hcred := huse.resolve_left hconf
      simpa [truthy] using hcred
  unfold reusesStored at hnone
  simp only [hurl, if_neg hne] at hnone
  split at hnone
  · rename_i hsame
    exact baseOf_of_any hsame hbase
  · rw [hexists, hkept] at hnone
    contradiction

theorem base_of_repoint (hpass : ∀ error, verifyPlexRepoint parse stored body ≠ .error error)
    (hnil : parse "" = none) (hurl : body.value (.url .plex) = some url)
    (hbase : parse url = some base) (hkept : body.submittedSecret .plex = none)
    (hstored : stored.value (.secret .plex) = some credential) (huse : credential ≠ "") :
    baseOf parse (stored.value (.url .plex)) = some base := by
  have hne : url ≠ "" := by
    intro heq
    rw [heq, hnil] at hbase
    contradiction
  by_cases hchg : some url = stored.value (.url .plex)
  · rw [← hchg]
    exact hbase
  by_cases hsame : ((stored.value (.url .plex)).any fun u =>
      u ≠ "" && sameServiceBase parse url u) = true
  · exact baseOf_of_any hsame hbase
  · -- The credential would have to be entered again.
    refine absurd ?_ (hpass plexReentry)
    have htruthy : truthy (stored.value (.secret .plex)) = true := by
      rw [hstored]
      simpa [truthy] using huse
    unfold verifyPlexRepoint
    simp only [hurl, hkept, hstored, Option.isSome_some, Option.isSome_none, Option.isNone_none,
      Option.some_or, Option.none_or, Bool.true_and, Bool.false_and, Bool.or_false]
    rw [if_neg (by simpa using hchg), if_neg (by simp [hne, huse])]
    rw [hstored] at htruthy
    rw [htruthy, Bool.not_eq_true _ |>.mp hsame]
    rfl

theorem Stored.Sound.write {saves : List Save} (h : stored.Sound parse saves)
    (hpass : Passed parse stored body) (hnil : parse "" = none) (change change' : Change) :
    (stored.write body change).Sound parse (saves ++ [⟨body, stored.write body change'⟩]) := by
  intro service credential base hsec huse hbase
  have hsec' : (body.submittedSecret service).or (stored.value (.secret service)) =
      some credential := hsec
  have hurl' : baseOf parse ((body.value (.url service)).or (stored.value (.url service))) =
      some base := hbase
  cases hsubm : body.submittedSecret service with
  | some submitted =>
    rw [hsubm, Option.some_or] at hsec'
    refine ⟨⟨body, stored.write body change'⟩, List.mem_append_right _ (List.mem_singleton.mpr rfl),
      ?_, hurl'⟩
    exact hsubm.trans hsec'
  | none =>
    rw [hsubm, Option.none_or] at hsec'
    refine Warranted.later ?_ _
    refine h service credential base hsec' huse ?_
    cases hval : body.value (.url service) with
    | none =>
      rw [hval, Option.none_or] at hurl'
      exact hurl'
    | some url =>
      rw [hval, Option.some_or] at hurl'
      have hprs : parse url = some base := hurl'
      cases service with
      | plex =>
        have hne : credential ≠ "" := of_decide_eq_true huse
        exact base_of_repoint hpass.repoint hnil hval hprs hsubm hsec' hne
      | prowlarr =>
        have hne : credential ≠ "" := of_decide_eq_true huse
        exact base_of_reentry
          (List.mem_cons_self) hpass.reentry hnil hval hprs hsubm hsec'
          (.inr hne)
      | qbittorrent =>
        exact base_of_reentry
          (List.mem_cons_of_mem _ List.mem_cons_self) hpass.reentry hnil hval hprs
          hsubm hsec' (.inl rfl)

theorem probe_of_verify {token : String}
    (h : verifyPlexRepoint parse stored body = .ok (.probe url token)) :
    (stored.write body .unchanged).value (.url .plex) = some url ∧
      (stored.write body .unchanged).value (.secret .plex) = some token ∧ token ≠ "" := by
  unfold verifyPlexRepoint at h
  simp only at h
  split at h
  · exact nomatch h
  split at h
  · rename_i effectiveUrl effectiveToken hurl htok
    split at h
    · exact nomatch h
    rename_i hnonemp
    split at h
    · exact nomatch h
    have hprobe := Except.ok.inj h
    have heqUrl : effectiveUrl = url := (Repoint.probe.inj hprobe).1
    have heqToken : effectiveToken = token := (Repoint.probe.inj hprobe).2
    rw [← heqUrl, ← heqToken]
    refine ⟨hurl, htok, fun heq => hnonemp ?_⟩
    simp [heq]
  · exact nomatch h

theorem probe_of_backfill {probe : Probe}
    (h : backfillMissingPlexAnchor stored body = .probing probe) :
    stored.value (.url .plex) = some probe.url ∧
      stored.value (.secret .plex) = some probe.token ∧ probe.token ≠ "" := by
  unfold backfillMissingPlexAnchor at h
  simp only at h
  split at h
  · exact nomatch h
  split at h
  · rename_i url token hurl htok
    split at h
    · exact nomatch h
    rename_i hnonemp
    have hprobe := Phase.probing.inj h
    rw [← hprobe]
    refine ⟨hurl, htok, fun heq => hnonemp ?_⟩
    have heq' : token = "" := heq
    simp [heq']
  · exact nomatch h

/-! ### Steps of a save -/

theorem Inv.start (h : w.Start parse) : Inv parse w where
  stored := h.stored
  puts := fun i p hp => by simp [h.puts] at hp
  resolvers := fun r hr => by simp [h.resolvers] at hr
  cached := fun service c hc => by simp [h.cached service] at hc
  clients := fun c hc => by simp [h.clients] at hc
  confined := fun r hr => by simp [h.requests] at hr

theorem Put.Sound.idle (h : p.phase.active = false) :
    p.Sound parse w i where
  holds := fun hact => absurd (hact.symm.trans h) (by decide)
  checked := fun hph => by simp [hph, Phase.active] at h
  probing := fun probe hph => by simp [hph, Phase.active] at h
  ready := fun change hph => by simp [hph, Phase.active] at h

theorem Put.Sound.congr (h : p.Sound parse w i) (hstored : w'.stored = w.stored)
    (hsave : w'.saves = w.saves)
    (hhold : w.holder = some i → w'.holder = some i) : p.Sound parse w' i where
  holds := fun hact => hhold (h.holds hact)
  checked := fun hph => by rw [hstored]; exact h.checked hph
  probing := fun probe hph => by rw [hstored, hsave]; exact h.probing probe hph
  ready := fun change hph => by rw [hstored]; exact h.ready change hph

section

variable (h : Inv parse w)
include h

theorem Inv.putPhase {p' : Put} {holder : Option Nat}
    (hoth : ∀ n, n ≠ i → w.holder = some n → holder = some n)
    (hsound : p'.Sound parse { w with puts := w.puts.set i p', holder } i) :
    Inv parse { w with puts := w.puts.set i p', holder } :=
  { h with
    puts := by
      intro n q hq
      cases found_set hq with
      | inl hself =>
        rw [hself.1, hself.2]
        exact hsound
      | inr hrest => exact (h.puts n q hrest.2).congr rfl rfl (hoth n hrest.1) }

theorem Inv.refuse (error : AppError) : Inv parse (w.refuse i p error) := by
  refine h.putPhase (fun n hn hhold => ?_) (Put.Sound.idle rfl)
  rw [hhold, if_neg]
  exact fun heq => hn (Option.some.inj heq)

theorem Inv.lock (hstep : w.lock i p = some w') : Inv parse w' := by
  unfold World.lock at hstep
  split at hstep
  · rename_i hfree
    cases hstep
    refine h.putPhase (fun n _ hhold => ?_)
      ⟨fun _ => rfl, fun hph => ?_, fun probe hph => ?_, fun change hph => ?_⟩
    · exact absurd (hfree.2.symm.trans hhold) nofun
    · exact Phase.noConfusion hph
    · exact Phase.noConfusion hph
    · exact Phase.noConfusion hph
  · contradiction

theorem Inv.check (hp : w.puts[i]? = some p)
    (hstep : w.check parse i p = some w') : Inv parse w' := by
  unfold World.check at hstep
  split at hstep
  · rename_i hlock
    have hholds := (h.puts i p hp).holds (hlock ▸ rfl)
    split at hstep
    · cases hstep
      exact h.refuse _
    rename_i hpass
    cases hstep
    refine h.putPhase (fun n _ hhold => hhold)
      ⟨fun _ => hholds, fun _ => hpass, fun probe hph => ?_, fun change hph => ?_⟩
    · exact Phase.noConfusion hph
    · exact Phase.noConfusion hph
  · contradiction

theorem Inv.proceed (hholds : w.holder = some i)
    (hpass : Passed parse w.stored p.body) {phase : Phase}
    (hprobing : ∀ probe, phase = .probing probe → ∀ base, parse probe.url = some base →
      Warranted parse (w.saves ++ [⟨p.body, w.stored.write p.body .unchanged⟩]) .plex
        probe.token base) : Inv parse (w.goTo i p phase) := by
  have hph : Inv parse (w.putPhase i p phase) := by
    refine h.putPhase (fun n _ hhold => hhold)
      ⟨fun _ => hholds, fun _ => hpass.reentry, fun probe heq => ?_, fun _ _ => hpass⟩
    exact ⟨hpass, hprobing probe heq⟩
  unfold World.goTo
  split
  · exact h.refuse _
  · exact hph

theorem Inv.verify (hnil : parse "" = none) (hp : w.puts[i]? = some p)
    (hstep : w.verify parse i p = some w') : Inv parse w' := by
  unfold World.verify at hstep
  split at hstep
  · rename_i hchk
    have hsound := h.puts i p hp
    have hhold := hsound.holds (hchk ▸ rfl)
    have hreentry := hsound.checked hchk
    have hpass : ∀ r, verifyPlexRepoint parse w.stored p.body = .ok r →
        Passed parse w.stored p.body := by
      intro r hr
      exact ⟨hreentry, fun error herr => nomatch hr.symm.trans herr⟩
    split at hstep
    · cases hstep
      exact h.refuse _
    · rename_i hver
      cases hstep
      refine h.proceed hhold (hpass _ hver) fun probe hprobe base hbase => ?_
      rcases probe_of_backfill hprobe with ⟨hurl, htok, hne⟩
      refine Warranted.later (h.stored .plex probe.token base htok (decide_eq_true hne) ?_) _
      rw [hurl]
      exact hbase
    · rename_i hver
      cases hstep
      have hrdy : Inv parse (w.goTo i p (.ready .incomplete)) :=
        h.proceed hhold (hpass _ hver) fun probe hprobe => nomatch hprobe
      exact hrdy
    · rename_i url token hver
      cases hstep
      show Inv parse (w.goTo i p (.probing { url, token, backfill := false }))
      refine h.proceed hhold (hpass _ hver) fun probe hprobe base hbase => ?_
      rcases probe_of_verify hver with ⟨hurl, htok, hne⟩
      rw [← Phase.probing.inj hprobe] at hbase ⊢
      have hwr := h.stored.write (hpass _ hver) hnil .unchanged .unchanged
      refine hwr .plex token base htok (decide_eq_true hne) ?_
      rw [hurl]
      exact hbase
  · contradiction

end

theorem next_probing {plexSession : Bool} {p p' : Probe}
    (h : p.next stored plexSession answer = .probing p') : p'.url = p.url ∧ p'.token = p.token := by
  have hpass : ∀ machineIdentifier name,
      p.passed stored machineIdentifier name = .probing p' →
        p'.url = p.url ∧ p'.token = p.token := by
    intro machineIdentifier name hname
    unfold Probe.passed at hname
    split at hname
    · exact nomatch hname
    split at hname
    · rw [← Phase.probing.inj hname]
      exact ⟨rfl, rfl⟩
    · exact nomatch hname
  unfold Probe.next at h
  split at h
  · split at h
    · rw [← Phase.probing.inj h]
      exact ⟨rfl, rfl⟩
    · split at h
      · rw [← Phase.probing.inj h]
        exact ⟨rfl, rfl⟩
      · exact hpass _ _ h
    · exact hpass _ _ h
    · exact nomatch h
  · split at h
    · exact nomatch h
    split at h
    · exact nomatch h
    exact nomatch h

theorem Inv.probe (h : Inv parse w) (hp : w.puts[i]? = some p)
    (hstep : w.probe parse i p answer = some w') : Inv parse w' := by
  unfold World.probe at hstep
  split at hstep
  · rename_i probe hph
    have hsound := h.puts i p hp
    have hhold := hsound.holds (hph ▸ rfl)
    rcases hsound.probing probe hph with ⟨hpass, hwarranted⟩
    have hgo : Inv parse (w.goTo i p (probe.next w.stored p.plexSession answer)) := by
      refine h.proceed hhold hpass fun probe' hnext base hbase => ?_
      rcases next_probing hnext with ⟨hurl, htok⟩
      rw [htok]
      exact hwarranted base (hurl ▸ hbase)
    split at hstep
    · split at hstep
      · rename_i base hbase
        cases hstep
        refine ⟨hgo.stored, fun n q hq => ?_, hgo.resolvers, hgo.cached, hgo.clients, ?_⟩
        · exact (hgo.puts n q hq).congr rfl rfl id
        · intro r hr
          have hsave : (w.goTo i p (probe.next w.stored p.plexSession answer)).saves = w.saves := by
            unfold World.goTo
            split
            · rfl
            · rfl
          rw [hsave]
          cases List.mem_append.mp hr with
          | inl hold => exact h.confined r hold
          | inr hnew =>
            rw [List.mem_singleton.mp hnew]
            exact hwarranted base hbase
      · split at hstep
        · contradiction
        cases hstep
        exact hgo
    · cases hstep
      exact hgo
  · contradiction

theorem Inv.commit (h : Inv parse w) (hnil : parse "" = none) (hp : w.puts[i]? = some p)
    (hstep : w.commit i p = some w') : Inv parse w' := by
  unfold World.commit at hstep
  split at hstep
  · rename_i change hph
    have hsound := h.puts i p hp
    have hhold := hsound.holds (hph ▸ rfl)
    cases hstep
    have hnext : ∀ service credential base, Warranted parse w.saves service credential base →
        Warranted parse (w.saves ++ [⟨p.body, w.stored.write p.body change⟩]) service credential
          base := fun _ _ _ hw => hw.later _
    refine ⟨h.stored.write (hsound.ready change hph) hnil change change, ?_, ?_, ?_, ?_, ?_⟩
    · intro n q hq
      cases found_set hq with
      | inl hself =>
        rw [hself.2]
        exact Put.Sound.idle rfl
      | inr hrest =>
        -- Nobody else is past the lock.
        refine Put.Sound.idle (Bool.not_eq_true _ |>.mp fun hact => hrest.1 ?_)
        have hoth := (h.puts n q hrest.2).holds hact
        exact Option.some.inj (hoth.symm.trans hhold)
    · intro r hr
      have hr' := h.resolvers r hr
      exact ⟨fun s c b h1 h2 h3 => hnext s c b (hr'.beside s c b h1 h2 h3),
        fun s c b h1 h2 h3 => hnext s c b (hr'.got s c b h1 h2 h3), hr'.fresh, hr'.ordered⟩
    · exact fun service c hc => hnext _ _ _ (h.cached service c hc)
    · exact fun c hc => hnext _ _ _ (h.clients c hc)
    · intro r hr
      refine (h.confined r hr).mono fun save hsave => ?_
      cases List.mem_append.mp hsave with
      | inl hold => exact List.mem_append_left _ (List.mem_append_left _ hold)
      | inr hown => exact List.mem_append_right _ hown
  · contradiction

/-! ### Steps of a reader -/

theorem ordered_reads (purpose : Purpose) : Ordered purpose.reads := by
  cases purpose with
  | library | prowlarr | qbittorrent | health => simp [Purpose.reads, Ordered]

-- One statement finds what is warranted. The base of an address that was read before is the
-- one that is stored, or the credential is the one that stood beside it.
theorem Resolver.Sound.read {saves : List Save} (h : r.Sound parse saves)
    (hstored : stored.Sound parse saves) {field : Field} {todo : List Field}
    (htodo : r.todo = field :: todo)
    (hst : ∀ service, field = .secret service → r.steady parse stored service = true) :
    (r.read stored field todo).Sound parse saves := by
  have hord := h.ordered
  rw [htodo] at hord
  have hnext : ∀ service, Field.url service ∈ todo → r.got (.secret service) = none :=
    fun service hmem => h.fresh service (htodo ▸ List.mem_cons_of_mem field hmem)
  cases field with
  | url s =>
    -- A URL is read before its credential, so nothing was paired with it yet.
    have hnew : r.got (.secret s) = none := h.fresh s (htodo ▸ List.mem_cons_self)
    refine ⟨fun service credential base hby huse hbase => ?_,
      fun service credential base hgot huse hbase => ?_, fun service hmem => ?_, hord⟩
    · by_cases hs : service = s
      · have hcred : stored.value (.secret s) = some credential := by
          simpa [Resolver.read, hs] using hby
        have hurl : baseOf parse (stored.value (.url s)) = some base := by
          simpa [Resolver.read, hs] using hbase
        exact hs ▸ hstored s credential base hcred (hs ▸ huse) hurl
      · have hne : Field.url service ≠ .url s := fun heq => hs (Field.url.inj heq)
        simp only [Resolver.read, Function.update_of_ne hs] at hby
        simp only [Resolver.read, Function.update_of_ne hne] at hbase
        exact h.beside service credential base hby huse hbase
    · have hne : Field.secret service ≠ .url s := nofun
      simp only [Resolver.read, Function.update_of_ne hne] at hgot
      by_cases hs : service = s
      · rw [hs, hnew] at hgot
        contradiction
      · have hurl : Field.url service ≠ .url s := fun heq => hs (Field.url.inj heq)
        simp only [Resolver.read, Function.update_of_ne hurl] at hbase
        exact h.got service credential base hgot huse hbase
    · have hne : Field.secret service ≠ .url s := nofun
      exact hnext service hmem
  | secret s =>
    have hkept : ∀ service, (Function.update r.got (.secret s) (stored.value (.secret s)))
        (.url service) = r.got (.url service) :=
      fun service => Function.update_of_ne (fun heq => Field.noConfusion heq) _ _
    refine ⟨fun service credential base hby huse hbase => ?_,
      fun service credential base hgot huse hbase => ?_, fun service hmem => ?_, hord.2⟩
    · simp only [Resolver.read, hkept] at hby hbase
      exact h.beside service credential base hby huse hbase
    · simp only [Resolver.read, hkept] at hbase
      by_cases hs : service = s
      · have hcred : stored.value (.secret s) = some credential := by
          simpa [Resolver.read, hs] using hgot
        -- The read is steady: it stood beside that base, or the base is the stored one.
        have hsame := hst s rfl
        rw [hs] at hbase huse ⊢
        simp only [Resolver.steady, hcred, hbase, Option.all_some, huse, Bool.not_true,
          Bool.false_or, Bool.or_eq_true, decide_eq_true_eq] at hsame
        cases hsame with
        | inl hby => exact h.beside s credential base hby huse hbase
        | inr hbases => exact hstored s credential base hcred huse hbases
      · have hne : Field.secret service ≠ .secret s := fun heq => hs (Field.secret.inj heq)
        simp only [Resolver.read, Function.update_of_ne hne] at hgot
        exact h.got service credential base hgot huse hbase
    · have hne : service ≠ s := fun heq => hord.1 (heq ▸ hmem)
      have hfld : Field.secret service ≠ .secret s := fun heq => hne (Field.secret.inj heq)
      simp only [Resolver.read, Function.update_of_ne hfld]
      exact hnext service hmem
  -- The user name is no credential, and no part of a base.
  | qbittorrentUsername =>
    have hkept : ∀ f, f ≠ Field.qbittorrentUsername →
        (Function.update r.got .qbittorrentUsername (stored.value .qbittorrentUsername)) f =
          r.got f := fun f hf => Function.update_of_ne hf _ _
    have hurl : ∀ service, Field.url service ≠ .qbittorrentUsername :=
      fun service heq => Field.noConfusion heq
    have hsec : ∀ service, Field.secret service ≠ .qbittorrentUsername :=
      fun service heq => Field.noConfusion heq
    refine ⟨fun service credential base hby huse hbase => ?_,
      fun service credential base hgot huse hbase => ?_, fun service hmem => ?_, hord⟩
    · simp only [Resolver.read, hkept _ (hurl service)] at hby hbase
      exact h.beside service credential base hby huse hbase
    · simp only [Resolver.read, hkept _ (hurl service), hkept _ (hsec service)] at hgot hbase
      exact h.got service credential base hgot huse hbase
    · simp only [Resolver.read, hkept _ (hsec service)]
      exact hnext service hmem

theorem key_spec {key : ClientKey} (h : r.key service = some key) :
    key.service = service ∧ r.got (.url service) = some key.url ∧
      r.got (.secret service) = some key.credential ∧ usable service key.credential = true := by
  unfold Resolver.key at h
  split at h
  · rename_i url credential hurl hsec
    cases service with
    | qbittorrent =>
      simp only at h
      split at h
      · cases h
        exact ⟨rfl, hurl, hsec, rfl⟩
      · contradiction
    | plex | prowlarr =>
      simp only at h
      split at h
      · rename_i hboth
        cases h
        exact ⟨rfl, hurl, hsec, (Bool.and_eq_true .. |>.mp hboth).2⟩
      · contradiction
  · contradiction

theorem Resolver.Sound.client {saves : List Save} (h : r.Sound parse saves) {key : ClientKey}
    {client : Client} (hkey : r.key service = some key)
    (hbld : key.build parse = some client) : client.Sound parse saves := by
  rcases key_spec hkey with ⟨hserv, hurl, hsec, huse⟩
  rcases Option.map_eq_some_iff.mp hbld with ⟨base, hbase, hcli⟩
  have hbase' : baseOf parse (r.got (.url service)) = some base := by
    rw [hurl]
    exact hbase
  rw [← hcli, Client.Sound, hserv]
  exact h.got service key.credential base hsec huse hbase'

theorem Inv.build (h : Inv parse w) (hr : r.Sound parse w.saves) (service : Service) :
    Inv parse (w.build parse r service) ∧ (w.build parse r service).saves = w.saves := by
  have hadd : ∀ (client : Client) cached, client.Sound parse w.saves →
      (∀ s c, cached s = some c → c.client.Sound parse w.saves) →
      Inv parse { w with clients := w.clients ++ [client], cached } := by
    intro client cached hcli hcach
    refine ⟨h.stored, fun i p hp => (h.puts i p hp).congr rfl rfl id, h.resolvers, hcach, ?_,
      h.confined⟩
    intro c hc
    cases List.mem_append.mp hc with
    | inl hold => exact h.clients c hold
    | inr hnew => exact List.mem_singleton.mp hnew ▸ hcli
  unfold World.build
  split
  · exact ⟨h, rfl⟩
  rename_i key hkey
  simp only
  split
  · rename_i c hkept
    refine ⟨hadd c.client w.cached ?_ h.cached, rfl⟩
    split at hkept
    · exact h.cached service c (Option.filter_eq_some_iff.mp hkept).1
    · contradiction
  · split
    · exact ⟨h, rfl⟩
    rename_i client hbld
    have hcli := hr.client hkey hbld
    refine ⟨hadd client _ hcli fun s c hc => ?_, rfl⟩
    split at hc
    · by_cases hs : s = service
      · rw [hs, Function.update_self] at hc
        cases hc
        exact hcli
      · rw [Function.update_of_ne hs] at hc
        exact h.cached s c hc
    · exact h.cached s c hc

theorem Inv.builds {services : List Service} : ∀ {w : World}, Inv parse w →
    r.Sound parse w.saves → Inv parse (services.foldl (fun w s => w.build parse r s) w) := by
  induction services with
  | nil => exact fun h _ => h
  | cons service services ih =>
    intro w h hr
    rcases h.build hr service with ⟨hinv, hsave⟩
    exact ih hinv (hsave ▸ hr)

theorem Inv.read (h : Inv parse w) {k : Nat} (hr : w.resolvers[k]? = some r)
    (hterm : w.terms parse (.read k) = true)
    (hstep : w.read parse k r = some w') : Inv parse w' := by
  unfold World.read at hstep
  split at hstep
  · contradiction
  rename_i field todo htodo
  have hsound := h.resolvers r (List.mem_of_getElem? hr)
  have hread : (r.read w.stored field todo).Sound parse w.saves := by
    refine hsound.read h.stored htodo fun service hfld => ?_
    simpa [World.terms, hr, htodo, hfld] using hterm
  have hset : Inv parse
      { w with resolvers := w.resolvers.set k (r.read w.stored field todo) } := by
    refine ⟨h.stored, fun i p hp => (h.puts i p hp).congr rfl rfl id, fun q hq => ?_, h.cached,
      h.clients, h.confined⟩
    cases List.mem_or_eq_of_mem_set hq with
    | inl hold => exact h.resolvers q hold
    | inr hnew => exact hnew ▸ hread
  cases hstep
  split
  · exact hset.builds hread
  · exact hset

/-! ### Runs -/

theorem Inv.step (hnil : parse "" = none) (w : World) (e : Event) (w' : World)
    (h : Inv parse w) (hterm : w.Terms parse e)
    (hstep : ServiceSettings.step parse w e = some w') : Inv parse w' := by
  -- What is new has nothing yet, and every other step has a lemma of its own.
  cases e with
  | put body plexSession =>
    cases hstep
    refine ⟨h.stored, fun i p hp => ?_, h.resolvers, h.cached, h.clients, h.confined⟩
    by_cases hlt : i < w.puts.length
    · rw [List.getElem?_append_left hlt] at hp
      exact (h.puts i p hp).congr rfl rfl id
    · rw [List.getElem?_append_right (Nat.le_of_not_lt hlt)] at hp
      rw [List.mem_singleton.mp (List.mem_of_getElem? hp)]
      exact Put.Sound.idle rfl
  | lock i =>
    rcases Option.bind_eq_some_iff.mp hstep with ⟨p, hp, hlock⟩
    exact h.lock hlock
  | check i =>
    rcases Option.bind_eq_some_iff.mp hstep with ⟨p, hp, hchk⟩
    exact h.check hp hchk
  | verify i =>
    rcases Option.bind_eq_some_iff.mp hstep with ⟨p, hp, hver⟩
    exact h.verify hnil hp hver
  | probe i answer =>
    rcases Option.bind_eq_some_iff.mp hstep with ⟨p, hp, hprobe⟩
    exact h.probe hp hprobe
  | commit i =>
    rcases Option.bind_eq_some_iff.mp hstep with ⟨p, hp, hcom⟩
    exact h.commit hnil hp hcom
  | abort i error =>
    rcases Option.bind_eq_some_iff.mp hstep with ⟨p, hp, habort⟩
    unfold World.abort at habort
    split at habort
    · contradiction
    · contradiction
    · cases habort
      exact h.refuse error
  | resolve purpose http =>
    cases hstep
    refine ⟨h.stored, fun i p hp => (h.puts i p hp).congr rfl rfl id, fun r hr => ?_, h.cached,
      h.clients, h.confined⟩
    cases List.mem_append.mp hr with
    | inl hold => exact h.resolvers r hold
    | inr hnew =>
      rw [List.mem_singleton.mp hnew]
      exact ⟨fun _ _ _ hby => absurd hby nofun,
        fun _ _ _ hgot => absurd hgot nofun, fun _ _ => rfl, ordered_reads purpose⟩
  | read k =>
    rcases Option.bind_eq_some_iff.mp hstep with ⟨r, hr, hread⟩
    exact h.read hr hterm hread
  | request n =>
    rcases Option.map_eq_some_iff.mp hstep with ⟨c, hc, hw'⟩
    rw [← hw']
    refine ⟨h.stored, fun i p hp => (h.puts i p hp).congr rfl rfl id, h.resolvers, h.cached,
      h.clients, fun r hr => ?_⟩
    cases List.mem_append.mp hr with
    | inl hold => exact h.confined r hold
    | inr hnew =>
      rw [List.mem_singleton.mp hnew]
      exact (h.clients c (List.mem_of_getElem? hc)).later []

/-- Where no reader finds another base and another credential in between, every credential
    goes where it was entered. -/
theorem credentials_stay (httpx : Httpx) (netlocOk : Text → Bool) (w t : World) (es : List Event)
    (hstart : w.Start (serviceBase httpx netlocOk))
    (hmeet : StepsMeet (step (serviceBase httpx netlocOk))
    (World.Terms (serviceBase httpx netlocOk))
      w es)
    (hrun : run (step (serviceBase httpx netlocOk)) w es = some t) :
    t.Confined (serviceBase httpx netlocOk) := by
  have hnil : serviceBase httpx netlocOk "" = none := by
    unfold serviceBase ServiceUrl.parse
    rw [if_pos]
    decide
  have hkeep : ∀ s e s', Inv (serviceBase httpx netlocOk) s →
      s.Terms (serviceBase httpx netlocOk) e → step (serviceBase httpx netlocOk) s e = some s' →
      Inv (serviceBase httpx netlocOk) s' :=
    fun s e s' h hterm hstep => Inv.step hnil s e s' h hterm hstep
  exact (invariant_of_meeting_run hkeep w t es (Inv.start hstart) hmeet hrun).confined

/-! ### Two indexers -/

/-- `httpx` on addresses that are a scheme and a name in small letters. -/
def namedHosts : Httpx where
  url text := match text with
    | 'h' :: 't' :: 't' :: 'p' :: ':' :: '/' :: '/' :: name => some
        { scheme := http, userinfo := [], rawHost := name, port := none, path := ['/'], query := []
          fragment := [] }
    | _ => none
  host u := some u.rawHost
  str u _ := u.scheme ++ "://".toList ++ u.rawHost
  buildable _ := true

def namedBase (url : String) : Option Text := serviceBase namedHosts (fun _ => true) url

def install : World where
  stored := ⟨fun _ => none, none⟩

theorem install_start : install.Start namedBase where
  stored := fun service credential base hcred => by simp [install] at hcred
  holder := rfl
  puts := rfl
  resolvers := rfl
  cached := fun _ => rfl
  clients := rfl
  requests := rfl

/-- A save of an address and a key of the indexer, either of which may be left out. -/
def indexerBody (url key : Option String) : SettingsUpdate
  | .url .prowlarr => url.map some
  | .secret .prowlarr => key.map some
  | _ => none

def saves (i : Nat) (url key : Option String) : List Event :=
  [.put (indexerBody url key) false, .lock i, .check i, .verify i, .commit i]

/-- The indexer is configured, and a client is built and used. -/
def settled : List Event :=
  saves 0 (some "http://old") (some "first") ++ [.resolve .prowlarr 0, .read 0, .read 0, .request 0]

theorem credentials_stay_settled :
    ∃ t, run (step namedBase) install settled = some t ∧
      t.requests.map (fun r => (r.base, r.credential)) = [("http://old".toList, "first")] ∧
      t.Confined namedBase := by
  refine exists_run_and (by decide +kernel) fun t ht _ => ?_
  exact credentials_stay namedHosts (fun _ => true) install t settled install_start
    (by decide +kernel) ht

/-- The address of the old indexer is read. The indexer is replaced, its key is replaced
    again, and then the key is read. -/
def replaced : List Event :=
  saves 0 (some "http://old") (some "first") ++ [.resolve .prowlarr 0, .read 0] ++
    saves 1 (some "http://new") (some "second") ++ saves 2 none (some "third") ++
    [.read 0, .request 0]

/-- The last key goes to the indexer that was replaced before it was entered. -/
theorem credential_strays :
    install.Start namedBase ∧ ∃ t, run (step namedBase) install replaced = some t ∧
      t.requests.map (fun r => (r.base, r.credential)) = [("http://old".toList, "third")] ∧
      ¬ t.Confined namedBase := by
  exact ⟨install_start, exists_run (by decide +kernel) fun _ _ h => h⟩

end ServiceSettings

end PlexManager
