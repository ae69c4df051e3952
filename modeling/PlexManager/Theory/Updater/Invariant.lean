import PlexManager.Core.UpdaterRunner
import PlexManager.Theory.Coordinator.Settled

/-!
# What the updater's record is worth

Whatever has happened, the record on file tells the truth about the operation
it is about. While it says `prepared` nothing has been touched; when it says
that an outcome was acknowledged, it was; and once the coordinator has accepted
a success, it says so or is about to. The containers carry what is needed to
tell the operation's own from the one it replaces.

`Allowed` is what the updater may do to its host from there: remove a container
of the operation that is not its target, or its target once it is relieved, and
remove the record once the target or its replacement has the name.

## Main definitions

* `Acknowledged`, `Accepted`: What the coordinator has said about an operation.
* `HostOk`, `RecordOk`, `Inv`: The invariant.
* `Replacement`, `Relieved`, `Allowed`: What may be removed, and when.
* `contract`, `Runs`, `On`: The contract of the updater, and runs that keep it.
* `Seen`, `Reshaped`: What inspections and changes of a container preserve.
-/

namespace PlexManager

namespace Updater

open Coordinator Effects

def Acknowledged (h : Host) (operation : OperationId) (outcome : Outcome) : Prop :=
  ∃ o ∈ h.outcomes, o.operation = operation ∧ o.outcome = outcome

/-- The coordinator has accepted the success of an operation: it cleared the
    action and deleted the drain. -/
def Accepted (h : Host) (operation : OperationId) : Prop :=
  ∃ o ∈ h.outcomes, o.operation = operation ∧ o.outcome = .succeeded ∧ o.accepted = true

/-! ### The invariant -/

structure HostOk (h : Host) : Prop where
  /-- The daemon has not given the next id away. -/
  fresh : ∀ c ∈ h.containers, c.id < h.nextContainer
  unique : ∀ c ∈ h.containers, ∀ c' ∈ h.containers, c.id = c'.id → c = c'
  labelled : ∀ c ∈ h.containers, ∀ operation, c.labels.operation = some operation →
    operation ∈ h.operations
  reported : ∀ o ∈ h.outcomes, o.operation ∈ h.operations

/-- What a record on file says is true of the host. -/
structure RecordOk (h : Host) (st : UpdateState) : Prop where
  drawn : st.operationId ∈ h.operations
  target_old : st.targetId < h.nextContainer
  target_foreign : ∀ c ∈ h.containers, c.id = st.targetId →
    c.labels.operation ≠ some st.operationId
  loads : st.fromJson = some st
  prepared : st.stage = .prepared → st.candidateId = none ∧ h.containers = h.baseline ∧
    ∃ c ∈ h.containers, c.id = st.targetId ∧ c.name = .configured
  succeeded : st.stage = .outcomeAcknowledged → Acknowledged h st.operationId .succeeded
  rolledBack : st.stage = .rollbackAcknowledged → Acknowledged h st.operationId .rolledBack
  /-- From an accepted success there is no way back. -/
  accepted : Accepted h st.operationId →
    st.stage = .candidateRenamed ∨ st.stage = .outcomeAcknowledged

structure Inv (w : World) : Prop where
  host : HostOk w.host
  record : ∀ st, w.host.file = some st → RecordOk w.host st
  sane : w.service.Sane
  settled : ∀ st, w.host.file = some st → Accepted w.host st.operationId →
    SettledService st.leaseToken st.actionGeneration w.service

/-! ### What is allowed -/

variable (imageRef : String)

/-- A container that has taken the target's place: under the configured name,
    with the expected image and the labels of the operation, and found healthy
    in this run. -/
structure Replacement (h : Host) (st : UpdateState) (role : Role)
    (image : ImageId) (c : Container) : Prop where
  present : c ∈ h.containers
  named : c.name = .configured
  imaged : c.image = image
  labelled : c.labels = operationLabels imageRef st.operationId role
  healthy : c.id ∈ h.observed

/-- The outcome of the operation is acknowledged, and its replacement is there:
    the candidate of a success, the clone of a rollback. -/
def Relieved (h : Host) (st : UpdateState) : Prop :=
  (Acknowledged h st.operationId .succeeded ∧
    ∃ c, st.candidateId = some c.id ∧
      Replacement imageRef h st .candidate st.desiredImageId c) ∨
  (Acknowledged h st.operationId .rolledBack ∧
    ∃ c, st.rollbackId = some c.id ∧ Replacement imageRef h st .rollback st.oldImageId c)

/-- The target of an operation that was given up before anything was touched. -/
def Untouched (h : Host) (st : UpdateState) : Prop :=
  st.stage = .prepared ∧ h.containers = h.baseline ∧
    ∃ c ∈ h.containers, c.id = st.targetId ∧ c.name = .configured

def Removed (h h' : Host) (c : Container) : Prop :=
  c ∈ h.containers ∧ ∀ c' ∈ h'.containers, c'.id ≠ c.id

/-- What one step of the updater may do to its host. -/
structure Allowed (h h' : Host) : Prop where
  removed : ∀ c, Removed h h' c → ∃ st, h.file = some st ∧
    (c.id = st.targetId ∧ Relieved imageRef h st ∨
      c.id ≠ st.targetId ∧ c.labels.operation = some st.operationId ∧
        ¬ Accepted h st.operationId)
  cleared : ∀ st, h.file = some st → h'.file = none → Untouched h' st ∨ Relieved imageRef h' st
  /-- What the coordinator has acknowledged it has acknowledged. -/
  kept : ∀ o ∈ h.outcomes, o ∈ h'.outcomes

/-- The updater owes its invariant at every operation, and moves its host only
    as allowed. -/
def contract (config : UpdaterConfig) : Contract World Host where
  view w := w.host
  Inv := Inv
  Guarantee := Allowed config.imageRef

abbrev Runs {σ α : Type} (config : UpdaterConfig) (st : σ) (h : Host) (x : UpdaterM σ α)
    (Q : α → σ → Host → Prop) (E : Failure → σ → Host → Prop) : Prop :=
  Spec (machine config) (contract config) st h x Q E

/-- The record in memory is the one on file. -/
structure On (st : UpdateState) (h : Host) : Prop where
  file : h.file = some st
  host : HostOk h
  record : RecordOk h st

variable {h h' : Host} {st : UpdateState} {imageRef : String}

theorem Replacement.of_same {role : Role} {image : ImageId} {c : Container}
    (hr : Replacement imageRef h st role image c) (hconts : h'.containers = h.containers)
    (hobs : ∀ id ∈ h.observed, id ∈ h'.observed) : Replacement imageRef h' st role image c :=
  ⟨hconts ▸ hr.present, hr.named, hr.imaged, hr.labelled, hobs _ hr.healthy⟩

theorem Relieved.of_same (hr : Relieved imageRef h st) (hconts : h'.containers = h.containers)
    (hobs : ∀ id ∈ h.observed, id ∈ h'.observed) (houtcomes : h'.outcomes = h.outcomes) :
    Relieved imageRef h' st := by
  simp only [Relieved, Acknowledged, houtcomes] at hr ⊢
  rcases hr with ⟨hack, c, hid, hc⟩ | ⟨hack, c, hid, hc⟩
  · exact .inl ⟨hack, c, hid, hc.of_same hconts hobs⟩
  · exact .inr ⟨hack, c, hid, hc.of_same hconts hobs⟩

theorem allowed_of_ids (hids : ∀ c ∈ h.containers, ∃ c' ∈ h'.containers, c'.id = c.id)
    (hfile : h.file.isSome = true → h'.file.isSome = true)
    (hkept : ∀ o ∈ h.outcomes, o ∈ h'.outcomes) : Allowed imageRef h h' where
  removed := by
    intro c hc
    rcases hids c hc.1 with ⟨c', hc', hid⟩
    exact absurd hid (hc.2 c' hc')
  cleared := by
    intro st hst hnone
    rw [hst, hnone] at hfile
    exact absurd (hfile rfl) nofun
  kept := hkept

theorem allowed_refl (imageRef : String) (h : Host) : Allowed imageRef h h :=
  allowed_of_ids (fun c hc => ⟨c, hc, rfl⟩) id fun _ ho => ho

/-! ### Inspections -/

/-- Nothing has changed but that more has been found healthy. -/
def Seen (h h' : Host) : Prop :=
  ∃ observed, h' = { h with observed := observed } ∧ ∀ id ∈ h.observed, id ∈ observed

theorem Seen.refl (h : Host) : Seen h h := ⟨h.observed, rfl, fun _ hid => hid⟩

theorem Seen.trans {h'' : Host} (h₁ : Seen h h') (h₂ : Seen h' h'') : Seen h h'' := by
  rcases h₁ with ⟨o₁, rfl, hsub₁⟩
  rcases h₂ with ⟨o₂, rfl, hsub₂⟩
  exact ⟨o₂, rfl, fun id hid => hsub₂ id (hsub₁ id hid)⟩

theorem Seen.containers (hseen : Seen h h') : h'.containers = h.containers := by
  rcases hseen with ⟨o, rfl, -⟩
  rfl

theorem Seen.outcomes (hseen : Seen h h') : h'.outcomes = h.outcomes := by
  rcases hseen with ⟨o, rfl, -⟩
  rfl

theorem Seen.file (hseen : Seen h h') : h'.file = h.file := by
  rcases hseen with ⟨o, rfl, -⟩
  rfl

theorem HostOk.seen (hok : HostOk h) (hseen : Seen h h') : HostOk h' := by
  rcases hseen with ⟨o, rfl, -⟩
  exact ⟨hok.fresh, hok.unique, hok.labelled, hok.reported⟩

theorem RecordOk.seen (hok : RecordOk h st) (hseen : Seen h h') : RecordOk h' st := by
  rcases hseen with ⟨o, rfl, -⟩
  exact ⟨hok.drawn, hok.target_old, hok.target_foreign, hok.loads, hok.prepared, hok.succeeded,
    hok.rolledBack, hok.accepted⟩

theorem On.seen (hon : On st h) (hseen : Seen h h') : On st h' :=
  ⟨hseen.file.trans hon.file, hon.host.seen hseen, hon.record.seen hseen⟩

/-! ### Changes of the containers -/

def Reshaped (h h' : Host) : Prop :=
  ∃ f : Container → Container,
    (∀ c, (f c).id = c.id ∧ (f c).labels = c.labels ∧ (f c).image = c.image) ∧
    h' = { h with containers := h.containers.map f }

theorem Reshaped.refl (h : Host) : Reshaped h h :=
  ⟨id, fun _ => ⟨rfl, rfl, rfl⟩, by simp⟩

theorem HostOk.reshape (hok : HostOk h) (hr : Reshaped h h') : HostOk h' := by
  rcases hr with ⟨f, hf, rfl⟩
  refine ⟨?_, ?_, ?_, hok.reported⟩
  · intro c hc
    rcases List.mem_map.mp hc with ⟨old, hold, rfl⟩
    rw [(hf old).1]
    exact hok.fresh old hold
  · intro c hc c' hc' hid
    rcases List.mem_map.mp hc with ⟨old, hold, rfl⟩
    rcases List.mem_map.mp hc' with ⟨old', hold', rfl⟩
    rw [(hf old).1, (hf old').1] at hid
    rw [hok.unique old hold old' hold' hid]
  · intro c hc operation hop
    rcases List.mem_map.mp hc with ⟨old, hold, rfl⟩
    rw [(hf old).2.1] at hop
    exact hok.labelled old hold operation hop

theorem RecordOk.reshape (hok : RecordOk h st) (hstg : st.stage ≠ .prepared)
    (hr : Reshaped h h') : RecordOk h' st := by
  rcases hr with ⟨f, hf, rfl⟩
  refine ⟨hok.drawn, hok.target_old, ?_, hok.loads, fun hp => absurd hp hstg, hok.succeeded,
    hok.rolledBack, hok.accepted⟩
  intro c hc hid
  rcases List.mem_map.mp hc with ⟨old, hold, rfl⟩
  rw [(hf old).2.1]
  exact hok.target_foreign old hold ((hf old).1 ▸ hid)

theorem On.reshape (hon : On st h) (hstg : st.stage ≠ .prepared)
    (hr : Reshaped h h') : On st h' := by
  refine ⟨?_, hon.host.reshape hr, hon.record.reshape hstg hr⟩
  rcases hr with ⟨f, -, rfl⟩
  exact hon.file

theorem allowed_of_reshaped (hr : Reshaped h h') : Allowed imageRef h h' := by
  rcases hr with ⟨f, hf, rfl⟩
  refine allowed_of_ids ?_ id fun _ ho => ho
  intro c hc
  exact ⟨f c, List.mem_map.mpr ⟨c, hc, rfl⟩, (hf c).1⟩

def without (h : Host) (id : ContainerId) : Host :=
  { h with containers := h.containers.filter fun c => c.id != id }

theorem HostOk.remove (hok : HostOk h) (id : ContainerId) : HostOk (without h id) where
  fresh := fun c hc => hok.fresh c (List.mem_filter.mp hc).1
  unique := fun c hc c' hc' =>
    hok.unique c (List.mem_filter.mp hc).1 c' (List.mem_filter.mp hc').1
  labelled := fun c hc => hok.labelled c (List.mem_filter.mp hc).1
  reported := hok.reported

theorem RecordOk.remove (hok : RecordOk h st) (hstg : st.stage ≠ .prepared)
    (id : ContainerId) : RecordOk (without h id) st :=
  ⟨hok.drawn, hok.target_old, fun c hc => hok.target_foreign c (List.mem_filter.mp hc).1,
    hok.loads, fun hp => absurd hp hstg, hok.succeeded, hok.rolledBack, hok.accepted⟩

theorem On.remove (hon : On st h) (hstg : st.stage ≠ .prepared)
    (id : ContainerId) : On st (without h id) :=
  ⟨hon.file, hon.host.remove id, hon.record.remove hstg id⟩

def withNew (h : Host) (c : Container) : Host :=
  { h with containers := h.containers ++ [c], nextContainer := h.nextContainer + 1 }

theorem HostOk.create (hok : HostOk h) (c : Container) (hid : c.id = h.nextContainer)
    (hlab : ∀ operation, c.labels.operation = some operation → operation ∈ h.operations) :
    HostOk (withNew h c) where
  fresh := by
    intro d hd
    rcases List.mem_append.mp hd with hd | hd
    · exact Nat.lt_succ_of_lt (hok.fresh d hd)
    · rw [List.mem_singleton.mp hd, hid]
      exact Nat.lt_succ_self _
  unique := by
    -- The new id is above every old one.
    intro d hd d' hd' heq
    rcases List.mem_append.mp hd with hd | hd
    · rcases List.mem_append.mp hd' with hd' | hd'
      · exact hok.unique d hd d' hd' heq
      · rw [List.mem_singleton.mp hd', hid] at heq
        exact absurd heq (Nat.ne_of_lt (hok.fresh d hd))
    · rcases List.mem_append.mp hd' with hd' | hd'
      · rw [List.mem_singleton.mp hd, hid] at heq
        exact absurd heq.symm (Nat.ne_of_lt (hok.fresh d' hd'))
      · rw [List.mem_singleton.mp hd, List.mem_singleton.mp hd']
  labelled := by
    intro d hd operation hop
    rcases List.mem_append.mp hd with hd | hd
    · exact hok.labelled d hd operation hop
    · rw [List.mem_singleton.mp hd] at hop
      exact hlab operation hop
  reported := hok.reported

theorem RecordOk.create (hok : RecordOk h st) (hstg : st.stage ≠ .prepared) (c : Container)
    (hid : c.id = h.nextContainer) : RecordOk (withNew h c) st := by
  refine ⟨hok.drawn, Nat.lt_succ_of_lt hok.target_old, ?_, hok.loads,
    fun hp => absurd hp hstg, hok.succeeded, hok.rolledBack, hok.accepted⟩
  intro d hd htgt
  rcases List.mem_append.mp hd with hd | hd
  · exact hok.target_foreign d hd htgt
  · rw [List.mem_singleton.mp hd, hid] at htgt
    exact absurd htgt.symm (Nat.ne_of_lt hok.target_old)

theorem On.create (hon : On st h) (hstg : st.stage ≠ .prepared) (c : Container)
    (hid : c.id = h.nextContainer)
    (hlab : c.labels.operation = some st.operationId) : On st (withNew h c) := by
  refine ⟨hon.file, hon.host.create c hid ?_, hon.record.create hstg c hid⟩
  intro operation hop
  rw [hlab, Option.some.injEq] at hop
  exact hop ▸ hon.record.drawn

theorem Inv.onHost {w : World} (hinv : Inv w) (hfile : h'.file = w.host.file)
    (houtcomes : h'.outcomes = w.host.outcomes) (hhost : HostOk h')
    (hrec : ∀ st, w.host.file = some st → RecordOk h' st) :
    Inv { w with host := h' } where
  host := hhost
  record := fun st hst => hrec st (hfile ▸ hst)
  sane := hinv.sane
  settled := by
    intro st hst hacc
    refine hinv.settled st (hfile ▸ hst) ?_
    simpa only [Accepted, houtcomes] using hacc

end Updater

end PlexManager
