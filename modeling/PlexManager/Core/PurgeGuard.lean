import PlexManager.Lib.Interleaving
import PlexManager.Lib.KeyedTable
import PlexManager.Lib.PosixPath

/-!
# Placements and purges

An import places files into a directory of the library, and a purge deletes one.
Two registries in the process keep them apart. Each counts, for a normalized
path, the calls that have registered it. A placement is refused where a purge is
registered on a conflicting path, and a purge is put off where a placement is.

A purge does more than hold a path. It runs two probes and waits for a permit
and for the hook of its caller, and then a thread of its own deletes. The task
that waits for the thread is shielded from cancellation, but the shutdown of the
process abandons it, and then the path stays registered until the thread has
ended. Who takes the registration back is decided where the task goes on: the
task, a callback of the thread, or the caller of the purge.

A step is what happens between two `await`s, or a turn of a thread.
-/

namespace PlexManager

namespace PurgeGuard

open KeyedTable Interleaving PosixPath

/-- The process, of which only the working directory matters. -/
structure Process where
  cwd : List Char
  absolute : cwd.head? = some '/'

variable (proc : Process)

/-! ### The registries -/

def normalizeGuardPath (path : List Char) : List Char := abspath proc.cwd (normpath path)

/-- A `dict[str, int]` from normalized paths to counts. -/
abbrev Registry := Table (Prod.fst : List Char × Nat → List Char)

/-- The count of a normalized path. -/
def Registry.get (r : Registry) (norm : List Char) : Nat := ((r.find norm).map Prod.snd).getD 0

/-- Whether two normalized paths are equal or one of them, as a text, contains
    the other. -/
def conflict (norm other : List Char) : Bool :=
  norm = other || (other ++ ['/']).isPrefixOf norm || (norm ++ ['/']).isPrefixOf other

def conflictsWith (path : List Char) (r : Registry) : Bool :=
  r.rows.any fun entry => conflict (normalizeGuardPath proc path) entry.1

def Registry.increment (r : Registry) (norm : List Char) : Registry :=
  if (r.find norm).isSome then r.modify norm (fun e => (e.1, e.2 + 1)) fun _ => rfl
  else r.insert (norm, 1)

def Registry.decrement (r : Registry) (norm : List Char) : Registry :=
  if r.get norm > 1 then r.modify norm (fun e => (e.1, e.2 - 1)) fun _ => rfl
  else r.erase norm

def register (path : List Char) (r : Registry) : Registry :=
  r.increment (normalizeGuardPath proc path)

def unregister (path : List Char) (r : Registry) : Registry :=
  r.decrement (normalizeGuardPath proc path)

/-- `_ACTIVE_PLACEMENT_PATHS` and `_ACTIVE_PURGE_PATHS`. -/
structure Registries where
  placement : Registry
  purge : Registry

def Registries.empty : Registries := ⟨Table.empty, Table.empty⟩

def beginPlacement (path : List Char) (s : Registries) : Bool × Registries :=
  if conflictsWith proc path s.purge then (false, s)
  else (true, { s with placement := register proc path s.placement })

def endPlacement (path : List Char) (s : Registries) : Registries :=
  { s with placement := unregister proc path s.placement }

def beginPurge (path : List Char) (s : Registries) : Bool × Registries :=
  if conflictsWith proc path s.purge then (false, s)
  else (true, { s with purge := register proc path s.purge })

def endPurge (path : List Char) (s : Registries) : Registries :=
  { s with purge := unregister proc path s.purge }

/-! ### The purge -/

/-- The thread that deletes, and whether the loop has its outcome. -/
inductive Worker where
  | running
  | ended (failed : Bool)
  | delivered (failed : Bool)
  deriving DecidableEq, Repr

/-- `worker.done()`. -/
def Worker.done : Worker → Bool
  | .delivered _ => true
  | _ => false

/-- What `_await_worker_settlement` waits for. `resolved` is the future
    `settled`, which the outcome of the thread resolves, or the shutdown, and
    then it is also in `_ABANDONED_SETTLEMENTS`. -/
structure Settlement where
  worker : Worker
  resolved : Bool
  abandoned : Bool
  wasCancelled : Bool
  deriving DecidableEq, Repr

/-- The `await`s of a purge. After the settlement, `orphaned` is a thread that
    was abandoned and whose callback takes the registration back, and `held` a
    registration that is left to the caller. -/
inductive PurgePc where
  | entering
  | guard
  | reclaim
  | gate
  | hook
  | settling (st : Settlement)
  | orphaned (worker : Worker)
  | held
  | ended
  deriving DecidableEq, Repr

structure PurgeArgs where
  libraryPath : List Char
  holdPurgeRegistration : Bool := false
  beforeDelete : Bool := false
  deriving DecidableEq, Repr

/-- What happens at an `await` or in a thread. `proceed` is the ordinary end of
    what is awaited, `refuse` the answer of the guard that the path is outside
    the library, and `raise` an exception, of a probe, of the hook or of the
    start of the thread. -/
inductive Turn where
  | proceed
  | refuse
  | raise
  | cancel
  | threadEnds (failed : Bool)
  | deliver
  | abandon
  | resume
  deriving DecidableEq, Repr

/-- A turn of the thread itself, and of the loop that delivers its outcome. -/
def Worker.turn : Turn → Worker → Worker
  | .threadEnds failed, .running => .ended failed
  | .deliver, .ended failed => .delivered failed
  | _, worker => worker

def Settlement.start : Settlement := ⟨.running, false, false, false⟩

/-- Whether `_await_worker_settlement` returns without raising. -/
def Settlement.succeeded (st : Settlement) : Bool :=
  !st.abandoned && !st.wasCancelled && st.worker = .delivered false

/-- A turn while the task waits. The callback of the thread resolves the future
    with the delivery of its outcome. -/
def Settlement.turn (st : Settlement) : Turn → Settlement
  | .cancel => { st with wasCancelled := true }
  | .abandon => { st with resolved := true, abandoned := true }
  | t =>
      let worker := st.worker.turn t
      { st with worker := worker, resolved := st.resolved || worker.done }

/-- The `finally` of `_delete_to_settlement`: the registration stays with the
    caller, is taken back, or is left to the callback of the thread. -/
def settle (s : Registries) (a : PurgeArgs) (st : Settlement) : Registries × PurgePc :=
  if st.succeeded && a.holdPurgeRegistration then (s, .held)
  else if st.worker.done then (endPurge proc a.libraryPath s, .ended)
  else (s, .orphaned st.worker)

def purgeNext (t : Turn) (s : Registries) (a : PurgeArgs) : PurgePc → Registries × PurgePc
  | .entering =>
      if conflictsWith proc a.libraryPath s.placement then (s, .ended)
      else ({ s with purge := register proc a.libraryPath s.purge }, .guard)
  | .guard =>
      match t with
      | .proceed => (s, .reclaim)
      | .refuse | .raise | .cancel => (endPurge proc a.libraryPath s, .ended)
      | _ => (s, .guard)
  | .reclaim =>
      -- An `OSError` of the probe counts as nothing to reclaim.
      match t with
      | .proceed => (s, .gate)
      | .raise | .cancel => (endPurge proc a.libraryPath s, .ended)
      | _ => (s, .reclaim)
  | .gate =>
      match t with
      | .proceed => (s, if a.beforeDelete then .hook else .settling .start)
      | .raise | .cancel => (endPurge proc a.libraryPath s, .ended)
      | _ => (s, .gate)
  | .hook =>
      match t with
      | .proceed => (s, .settling .start)
      | .raise | .cancel => (endPurge proc a.libraryPath s, .ended)
      | _ => (s, .hook)
  | .settling st =>
      match t with
      | .resume => if st.resolved then settle proc s a st else (s, .settling st)
      | t => (s, .settling (st.turn t))
  | .orphaned worker =>
      if (worker.turn t).done then (endPurge proc a.libraryPath s, .ended)
      else (s, .orphaned (worker.turn t))
  | .held =>
      match t with
      | .proceed => (endPurge proc a.libraryPath s, .ended)
      | _ => (s, .held)
  | .ended => (s, .ended)

/-! ### Calls -/

inductive HolderPc where
  | entering
  | holding
  | ended
  deriving DecidableEq, Repr

inductive Caller where
  | placement (libraryPath : List Char) (pc : HolderPc)
  | claim (libraryPath : List Char) (pc : HolderPc)
  | purge (args : PurgeArgs) (pc : PurgePc)
  deriving DecidableEq, Repr

def Caller.next (t : Turn) (s : Registries) : Caller → Registries × Caller
  | .placement path pc =>
      match pc with
      | .entering =>
          ((beginPlacement proc path s).2,
            .placement path (if (beginPlacement proc path s).1 then .holding else .ended))
      | .holding => (endPlacement proc path s, .placement path .ended)
      | .ended => (s, .placement path .ended)
  | .claim path pc =>
      match pc with
      | .entering =>
          ((beginPurge proc path s).2,
            .claim path (if (beginPurge proc path s).1 then .holding else .ended))
      | .holding => (endPurge proc path s, .claim path .ended)
      | .ended => (s, .claim path .ended)
  | .purge a pc => ((purgeNext proc t s a pc).1, .purge a (purgeNext proc t s a pc).2)

inductive Request where
  | placement (libraryPath : List Char)
  | claim (libraryPath : List Char)
  | purge (args : PurgeArgs)
  deriving DecidableEq, Repr

def Request.start : Request → Caller
  | .placement path => .placement path .entering
  | .claim path => .claim path .entering
  | .purge a => .purge a .entering

def Request.path : Request → List Char
  | .placement path => path
  | .claim path => path
  | .purge a => a.libraryPath

/-- The path on which a thread of the call is deleting right now. -/
def Caller.deletes : Caller → Option (List Char)
  | .purge a (.settling ⟨.running, _, _, _⟩) => some a.libraryPath
  | .purge a (.orphaned .running) => some a.libraryPath
  | _ => none

/-- The call has returned, its claim is given back and its thread has ended. -/
def Caller.isOver : Caller → Bool
  | .placement _ .ended | .claim _ .ended | .purge _ .ended => true
  | _ => false

abbrev World := Interleaving.World Registries Caller

def World.idle : World := ⟨.empty, []⟩

inductive Action where
  | arrive (request : Request)
  | act (i : Nat) (t : Turn)
  deriving DecidableEq, Repr

def step (w : World) : Action → Option World
  | .arrive request => some (w.spawn request.start)
  | .act i t => w.act (Caller.next proc) i t

end PurgeGuard

end PlexManager
