import PlexManager.Core.FailureClassification
import PlexManager.Lib.Interleaving

/-!
# Failing a download: the ownership protocol

Three kinds of actor drive a download row from `failedPending` to `failed`: an
operator's `mark_failed`, a reconcile cycle, and the heal pass that runs when
no client is configured. They run concurrently in one process, and each is a
sequence of steps with an await between any two, so between two steps of one
the others can do anything.

Ownership lives in two places. The registry of live claims is process memory:
reads and writes of it are synchronous, so each belongs to the step it stands
in. The durable half is the row's `failedReason`, which holds a marker with the
owner's flags and its token as a nonce; every write compares it.

The model follows one row and one life of it. An actor is its program counter
with the values it holds, and `callStep` and `cycleStep` advance it by one
atomic step: one statement with the commit that makes it visible, or one
synchronous stretch. A stretch that follows an awaited statement is a step of
its own, because others may run before the actor resumes. `Choice` is what the
world answers: whether the awaited thing succeeded, failed or raised, and what
the client reports.

The log is not part of the program. It records what happened, newest first.
-/

namespace PlexManager

namespace QueueProtocol

open DownloadState

/-! ### Markers -/

structure OperatorFailFlags where
  blocklist : Bool
  removeTorrent : Bool
  deriving DecidableEq, Repr

/-- The `remove=` field of a marker: owed, declined, or already done. -/
inductive RemoveField where
  | yes
  | no
  | done
  deriving DecidableEq, Repr

/-- A provenance marker: the actor, its flags and its nonce. -/
structure FailMarker where
  operator : Bool
  blocklist : Bool
  remove : RemoveField
  nonce : Nat
  deriving DecidableEq, Repr

/-- A stored `failed_reason`: a string of the marker grammar is the marker it
    renders, and every other string is a text. -/
inductive FailedReason where
  | marker (m : FailMarker)
  | text (s : String)
  deriving DecidableEq, Repr

/-- `remove=done` parses like `remove=no`: no client is needed any more. -/
def FailMarker.removeTorrent (m : FailMarker) : Bool := m.remove == .yes

def operatorFailMarker (flags : OperatorFailFlags) (nonce : Nat) : FailMarker where
  operator := true
  blocklist := flags.blocklist
  remove := if flags.removeTorrent then .yes else .no
  nonce := nonce

def operatorFailMarkerRemovalDone (blocklist : Bool) (nonce : Nat) : FailMarker where
  operator := true
  blocklist := blocklist
  remove := .done
  nonce := nonce

/-- The reconcile actor's record of a removal. Its nonce is fixed; the tokens of
    operator calls start at one. -/
def reconcileRemovalDoneMarker (blocklist : Bool) : FailMarker where
  operator := false
  blocklist := blocklist
  remove := .done
  nonce := 0

def parseOperatorFailMarker : Option FailedReason → Option FailMarker
  | some (.marker m) => some m
  | _ => none

def operatorFailFinalReason : String := "marked failed by operator"

def reconcileFailFinalReason : String := "download failed; torrent already removed"

def uninspectedNotBlocklisted : String :=
  "; payload never inspected, release not blocklisted"

/-! ### The row and the registries -/

structure DownloadRow where
  status : DownloadState
  failedReason : Option FailedReason := none
  payloadPending : Bool := false
  payloadRejection : Option String := none
  deriving DecidableEq, Repr

inductive BlocklistReason where
  | failed
  | userReported
  deriving DecidableEq, Repr

/-- A live ownership claim. `removalInFlight` is set just before the owner's
    delete and stays set until the claim is released. -/
structure OperatorClaim where
  token : Nat
  flags : OperatorFailFlags
  removalInFlight : Bool := false
  deriving DecidableEq, Repr

structure MarkFailedArgs where
  blocklist : Bool
  removeTorrent : Bool
  allowClaimSupersede : Bool := true
  allowAdoptExistingMarker : Bool := true
  deriving DecidableEq, Repr

variable (args : MarkFailedArgs) (token : Nat) (s : Shared)

def MarkFailedArgs.flags : OperatorFailFlags :=
  ⟨args.blocklist, args.removeTorrent⟩

inductive Completer where
  | call (token : Nat) (args : MarkFailedArgs)
  | cycle
  deriving DecidableEq, Repr

inductive Event where
  | registered (token : Nat) (flags : OperatorFailFlags)
  | stamped (nonce : Nat)
  | deleteStarted
  /-- The terminal swap landed over this reason, and wrote a blocklist row or
      did not. -/
  | completed (reason : Option FailedReason) (wrote : Bool) (by_ : Completer)
  deriving DecidableEq, Repr

structure Shared where
  row : DownloadRow
  blocklist : List BlocklistReason := []
  claim : Option OperatorClaim := none
  nextToken : Nat := 1
  /-- How many actors hold the removal guard of the row. -/
  removalsInFlight : Nat := 0
  log : List Event := []
  deriving DecidableEq, Repr

/-- `_register_operator_claim`: refused while a removal is in flight, and
    without supersession while any claim is live; otherwise the newest call
    replaces the claim. -/
def registerOperatorClaim (flags : OperatorFailFlags) (allowSupersede : Bool) (s : Shared) :
    Option (Nat × Shared) :=
  if s.removalsInFlight ≠ 0 then none
  else if s.claim.any (·.removalInFlight) then none
  else if !allowSupersede && s.claim.isSome then none
  else
    some (s.nextToken,
      { s with
        claim := some { token := s.nextToken, flags := flags }
        nextToken := s.nextToken + 1
        log := .registered s.nextToken flags :: s.log })

def ownsOperatorClaim : Bool :=
  s.claim.any (·.token == token)

def isOperatorClaimed : Bool := s.claim.isSome

/-- `_mark_removal_in_flight`: token-gated. -/
def markRemovalInFlight : Shared :=
  { s with
    claim := s.claim.map fun claim =>
      if claim.token = token then { claim with removalInFlight := true } else claim }

/-- `_release_operator_claim`: token-gated. -/
def releaseOperatorClaim : Shared :=
  if ownsOperatorClaim token s then { s with claim := none } else s

def registerRemovalInFlight : Shared :=
  { s with removalsInFlight := s.removalsInFlight + 1 }

def releaseRemovalInFlight : Shared :=
  { s with removalsInFlight := s.removalsInFlight - 1 }

/-- `update_status_if_in`: move the row if it is in the expected status and, with
    a required reason, if its reason is exactly that. -/
def updateStatusIfIn (target expected : DownloadState) (failedReason : Option FailedReason)
    (requireFailedReason : Option (Option FailedReason)) (row : DownloadRow) :
    Option DownloadRow :=
  if row.status = expected ∧ requireFailedReason.all (· == row.failedReason) = true then
    some { row with status := target, failedReason := failedReason.or row.failedReason }
  else none

/-- The reason a completed row shows: a payload rejection goes before. -/
def finalReason (payloadRejection : Option String) (reason : String) : String :=
  match payloadRejection with
  | some rejection => if rejection.isEmpty then reason else rejection
  | none => reason

/-- The terminal swap with the blocklist row of the same transaction. `none` is
    a swap that matched no row. -/
def completeRow (observed : Option FailedReason) (final : String)
    (blocklist : Option BlocklistReason) (by_ : Completer) (s : Shared) : Option Shared :=
  (updateStatusIfIn .failed .failedPending (some (.text final)) (some observed) s.row).map
    fun row =>
      { s with
        row := row
        blocklist := s.blocklist ++ blocklist.toList
        log := .completed s.row.failedReason blocklist.isSome by_ :: s.log }

/-! ### What the world answers -/

/-- How an awaited statement or client call ends. -/
inductive Outcome where
  | ok
  /-- A database error, or a removal the client did not carry out. -/
  | failed
  /-- Anything else that escapes. -/
  | raised
  deriving DecidableEq, Repr

/-- A failure detail of the client. Only the application log may testify
    against the host. -/
structure FailureDetail where
  text : String
  fromLog : Bool
  deriving DecidableEq, Repr

/-- The reconciler's move for the row, with the reason it gives. -/
structure ReconcileMove where
  target : DownloadState
  reason : String
  deriving DecidableEq, Repr

structure Choice where
  outcome : Outcome := .ok
  move : Option ReconcileMove := none
  detail : Option FailureDetail := none
  /-- Whether the torrent is absent from the cycle's snapshot. -/
  absent : Bool := false
  deriving DecidableEq, Repr

/-! ### An operator call -/

def phaseCMaxAttempts : Nat := 3

/-- Where a `mark_failed` stands. `completing` and `releasing` remember whether
    the call has started a removal. -/
inductive CallPc where
  | start
  | loaded (status : DownloadState) (reason : Option FailedReason)
  | stamping (token : Nat) (status : DownloadState)
  | stampMissed (token : Nat)
  | restamping (token : Nat) (observed : Option FailedReason)
  | restampMissed (token : Nat)
  | rereading (token : Nat)
  | stamped (token : Nat)
  | removing (token : Nat)
  | recording (token : Nat)
  | completing (token : Nat) (marker : FailMarker) (attempts : Nat) (attempted : Bool)
  | releasing (token : Nat)
  | done
  deriving DecidableEq, Repr

def stampMarker (expected : DownloadState)
    (requireFailedReason : Option (Option FailedReason)) (s : Shared) : Option Shared :=
  (updateStatusIfIn .failedPending expected (some (.marker (operatorFailMarker args.flags token)))
    requireFailedReason s.row).map
    fun row => { s with row := row, log := .stamped token :: s.log }

/-- One step of `mark_failed`. -/
def callStep (c : Choice) (s : Shared) : CallPc → Shared × CallPc
  | .start =>
      if c.outcome ≠ .ok || s.row.status.terminalState then (s, .done)
      else (s, .loaded s.row.status s.row.failedReason)
  | .loaded status reason =>
      if c.outcome ≠ .ok then (s, .done)
      else match registerOperatorClaim args.flags args.allowClaimSupersede s with
        | none => (s, .done)
        | some (token, s) =>
            if status = .failedPending then
              if args.allowAdoptExistingMarker then (s, .restamping token reason)
              else (s, .releasing token)
            else if isLegalTransition status .failedPending then (s, .stamping token status)
            else (s, .releasing token)
  | .stamping token status =>
      if c.outcome ≠ .ok then (s, .releasing token)
      else match stampMarker args token status none s with
        | some s => (s, .stamped token)
        | none => (s, .stampMissed token)
  | .stampMissed token =>
      -- Re-read once: a row that reached `failedPending` meanwhile is adopted.
      if c.outcome ≠ .ok || s.row.status ≠ .failedPending then (s, .releasing token)
      else if args.allowAdoptExistingMarker then (s, .restamping token s.row.failedReason)
      else (s, .releasing token)
  | .restamping token observed =>
      if c.outcome ≠ .ok then (s, .releasing token)
      else match stampMarker args token .failedPending (some observed) s with
        | some s => (s, .stamped token)
        | none => (s, .restampMissed token)
  | .restampMissed token =>
      if ownsOperatorClaim token s then (s, .rereading token) else (s, .releasing token)
  | .rereading token =>
      if c.outcome ≠ .ok || s.row.status ≠ .failedPending then (s, .releasing token)
      else (s, .restamping token s.row.failedReason)
  | .stamped token =>
      if args.removeTorrent && ownsOperatorClaim token s then
        let s := markRemovalInFlight token s
        ({ s with log := .deleteStarted :: s.log }, .removing token)
      else
        (s, .completing token (operatorFailMarker args.flags token) phaseCMaxAttempts false)
  | .removing token =>
      match c.outcome with
      | .ok => (s, .recording token)
      | .failed =>
          (s, .completing token (operatorFailMarker args.flags token) phaseCMaxAttempts true)
      | .raised => (s, .releasing token)
  | .recording token =>
      let marker := operatorFailMarker args.flags token
      let doneMarker := operatorFailMarkerRemovalDone args.blocklist token
      match c.outcome with
      | .ok =>
          match updateStatusIfIn .failedPending .failedPending (some (.marker doneMarker))
              (some (some (.marker marker))) s.row with
          | some row => ({ s with row := row }, .completing token doneMarker phaseCMaxAttempts true)
          | none => (s, .completing token marker phaseCMaxAttempts true)
      | .failed => (s, .completing token marker phaseCMaxAttempts true)
      | .raised => (s, .releasing token)
  | .completing token marker attempts attempted =>
      match c.outcome with
      | .ok =>
          match completeRow (some (.marker marker))
              (finalReason s.row.payloadRejection operatorFailFinalReason)
              (if args.blocklist then some .userReported else none) (.call token args) s with
          | some s => (s, .releasing token)
          | none => (s, .releasing token)
      | .failed =>
          if attempts ≤ 1 then (s, .releasing token)
          else (s, .completing token marker (attempts - 1) attempted)
      | .raised => (s, .releasing token)
  | .releasing token => (releaseOperatorClaim token s, .done)
  | .done => (s, .done)

/-! ### A reconcile cycle and the heal pass -/

/-- One failure a cycle will complete, with the reason value its provenance was
    derived from. -/
structure FailureCompletion where
  reason : String
  blocklist : Bool
  removeTorrent : Bool
  blocklistReason : BlocklistReason
  observed : Option FailedReason
  payloadRejection : Option String
  deriving DecidableEq, Repr

def detectedReason (base : String) : Option FailureDetail → String
  | some d => base ++ ": " ++ d.text
  | none => base

/-- The text a detected failure is judged by: what a tracker says is left out. -/
def classifyText (base : String) : Option FailureDetail → String
  | some d => if d.fromLog then base ++ ": " ++ d.text else base
  | none => base

def detectedCompletion (snap : DownloadRow) (base : String) (detail : Option FailureDetail)
    (absent : Bool) : FailureCompletion :=
  let uninspected := snap.payloadPending && absent
  { reason :=
      if uninspected then detectedReason base detail ++ uninspectedNotBlocklisted
      else detectedReason base detail
    blocklist := !uninspected &&
      classifyFailureDetail (some (classifyText base detail)) ≠ .environmental
    removeTorrent := true
    blocklistReason := .failed
    observed := snap.failedReason
    payloadRejection := snap.payloadRejection }

def reasonText : Option FailedReason → Option String
  | some (.text s) => some s
  | _ => none

/-- The completion of a row that was pending when the cycle listed it: a marker
    carries its own flags, anything else is judged by its text. -/
def residualCompletion (snap : DownloadRow) : FailureCompletion :=
  match parseOperatorFailMarker snap.failedReason with
  | some m =>
      { reason := if m.operator then operatorFailFinalReason else reconcileFailFinalReason
        blocklist := m.blocklist
        removeTorrent := m.removeTorrent
        blocklistReason := if m.operator then .userReported else .failed
        observed := snap.failedReason
        payloadRejection := snap.payloadRejection }
  | none =>
      { reason := match reasonText snap.failedReason with
          | some s => if s.isEmpty then "recovered stranded failed_pending row" else s
          | none => "recovered stranded failed_pending row"
        blocklist :=
          !contains ((reasonText snap.failedReason).getD "") uninspectedNotBlocklisted &&
            classifyFailureDetail (reasonText snap.failedReason) ≠ .environmental
        removeTorrent := true
        blocklistReason := .failed
        observed := snap.failedReason
        payloadRejection := snap.payloadRejection }

/-- Where a cycle stands with the row. `completing`, `swapping` and `finishing`
    remember whether the cycle holds the removal guard. -/
inductive CyclePc where
  | start
  | healStart
  | listed (snap : DownloadRow)
  | healListed (snap : DownloadRow)
  | transitioning (snap : DownloadRow) (move : ReconcileMove)
  | detailing (snap : DownloadRow) (base : String)
  | envCheck (completion : FailureCompletion)
  | envStamping (completion : FailureCompletion)
  | filtering (completion : FailureCompletion)
  | phaseB (completion : FailureCompletion)
  | reproving (completion : FailureCompletion)
  | reproved (completion : FailureCompletion) (unchanged : Bool)
  | deleting (completion : FailureCompletion)
  | recording (completion : FailureCompletion)
  | completing (completion : FailureCompletion) (attempts : Nat) (guarded : Bool)
  | swapping (completion : FailureCompletion) (attempts : Nat) (guarded : Bool)
  | finishing (guarded : Bool)
  | done
  deriving DecidableEq, Repr

/-- The record of a removal that succeeded: an owed operator marker keeps its
    flags and nonce, an unmarked row gets the reconcile record with the
    completion's verdict. -/
def removalDoneMarker (completion : FailureCompletion) : Option FailMarker :=
  match parseOperatorFailMarker completion.observed with
  | some m =>
      if m.removeTorrent then some (operatorFailMarkerRemovalDone m.blocklist m.nonce) else none
  | none => some (reconcileRemovalDoneMarker completion.blocklist)

/-- One step of `reconcile_and_list`, or of
    `heal_failed_pending_without_client`. -/
def cycleStep (c : Choice) (s : Shared) : CyclePc → Shared × CyclePc
  | .start =>
      if c.outcome ≠ .ok || s.row.status.terminalState then (s, .done) else (s, .listed s.row)
  | .healStart =>
      if c.outcome ≠ .ok || s.row.status.terminalState then (s, .done)
      else (s, .healListed s.row)
  | .listed snap =>
      if c.outcome ≠ .ok then (s, .done)
      else if snap.status = .failedPending then (s, .filtering (residualCompletion snap))
      else if isOperatorClaimed s || !snap.status.activeState then (s, .done)
      else match c.move with
        | some move =>
            if move.target.activeState || move.target = .failedPending then
              (s, .transitioning snap move)
            else (s, .done)
        | none => (s, .done)
  | .healListed snap =>
      match parseOperatorFailMarker snap.failedReason with
      | some m =>
          if snap.status = .failedPending && !m.removeTorrent && !isOperatorClaimed s then
            (s, .completing (residualCompletion snap) phaseCMaxAttempts false)
          else (s, .done)
      | none => (s, .done)
  | .transitioning snap move =>
      if c.outcome ≠ .ok then (s, .done)
      else match updateStatusIfIn move.target snap.status none none s.row with
        | some row =>
            if move.target = .failedPending then
              ({ s with row := row }, .detailing snap move.reason)
            else ({ s with row := row }, .done)
        | none => (s, .done)
  | .detailing snap base =>
      if c.outcome ≠ .ok then (s, .done)
      else (s, .envCheck (detectedCompletion snap base c.detail c.absent))
  | .envCheck completion =>
      if completion.blocklist || isOperatorClaimed s then (s, .filtering completion)
      else (s, .envStamping completion)
  | .envStamping completion =>
      if completion.observed = some (.text completion.reason) then (s, .filtering completion)
      else match c.outcome with
        | .ok =>
            match updateStatusIfIn .failedPending .failedPending
                (some (.text completion.reason)) (some completion.observed) s.row with
            | some row =>
                ({ s with row := row },
                  .filtering { completion with observed := some (.text completion.reason) })
            | none => (s, .filtering completion)
        | .failed => (s, .filtering completion)
        | .raised => (s, .done)
  | .filtering completion =>
      if isOperatorClaimed s then (s, .done) else (s, .phaseB completion)
  | .phaseB completion =>
      if isOperatorClaimed s then (s, .done)
      else if !completion.removeTorrent then
        (s, .completing completion phaseCMaxAttempts false)
      else (registerRemovalInFlight s, .reproving completion)
  | .reproving completion =>
      if c.outcome ≠ .ok then (s, .finishing true)
      else
        (s, .reproved completion
          (s.row.status = .failedPending && s.row.failedReason = completion.observed))
  | .reproved completion unchanged =>
      if unchanged then ({ s with log := .deleteStarted :: s.log }, .deleting completion)
      else (releaseRemovalInFlight s, .done)
  | .deleting completion =>
      match c.outcome with
      | .ok => (s, .recording completion)
      | .failed => (s, .completing completion phaseCMaxAttempts true)
      | .raised => (s, .finishing true)
  | .recording completion =>
      match removalDoneMarker completion with
      | none => (s, .completing completion phaseCMaxAttempts true)
      | some m =>
          match c.outcome with
          | .ok =>
              match updateStatusIfIn .failedPending .failedPending (some (.marker m))
                  (some completion.observed) s.row with
              | some row =>
                  ({ s with row := row },
                    .completing { completion with observed := some (.marker m) }
                      phaseCMaxAttempts true)
              | none => (s, .completing completion phaseCMaxAttempts true)
          | .failed => (s, .completing completion phaseCMaxAttempts true)
          | .raised => (s, .finishing true)
  | .completing completion attempts guarded =>
      if isOperatorClaimed s then (s, .finishing guarded)
      else (s, .swapping completion attempts guarded)
  | .swapping completion attempts guarded =>
      match c.outcome with
      | .ok =>
          match completeRow completion.observed
              (finalReason completion.payloadRejection completion.reason)
              (if completion.blocklist then some completion.blocklistReason else none) .cycle s with
          | some s => (s, .finishing guarded)
          | none => (s, .finishing guarded)
      | .failed =>
          if attempts ≤ 1 then (s, .finishing guarded)
          else (s, .completing completion (attempts - 1) guarded)
      | .raised => (s, .finishing guarded)
  | .finishing guarded => (if guarded then releaseRemovalInFlight s else s, .done)
  | .done => (s, .done)

/-! ### All of them together -/

inductive Actor where
  | call (args : MarkFailedArgs) (pc : CallPc)
  | cycle (pc : CyclePc)
  deriving DecidableEq, Repr

def actorStep (c : Choice) (s : Shared) : Actor → Shared × Actor
  | .call args pc => ((callStep args c s pc).1, .call args (callStep args c s pc).2)
  | .cycle pc => ((cycleStep c s pc).1, .cycle (cycleStep c s pc).2)

abbrev World := Interleaving.World Shared Actor

/-- A new actor starts, or one of those there are takes a step. -/
inductive Action where
  | markFailed (args : MarkFailedArgs)
  | reconcileAndList
  | healFailedPendingWithoutClient
  | act (i : Nat) (c : Choice)
  deriving DecidableEq, Repr

def step (w : World) : Action → Option World
  | .markFailed args => some (w.spawn (.call args .start))
  | .reconcileAndList => some (w.spawn (.cycle .start))
  | .healFailedPendingWithoutClient => some (w.spawn (.cycle .healStart))
  | .act i c => w.act actorStep i c

/-- A row that is being downloaded or imported, which nobody has failed yet and
    whose reason is no marker, with empty registries. -/
def Init (w : World) : Prop :=
  (∃ row : DownloadRow, w.shared = { row := row } ∧ row.status.terminalState = false ∧
    row.status ≠ .failedPending ∧ parseOperatorFailMarker row.failedReason = none) ∧
  w.actors = []

end QueueProtocol

end PlexManager
