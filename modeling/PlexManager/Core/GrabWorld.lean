import PlexManager.Core.GrabService

/-!
# Grabs side by side

Any number of grabs run at the same time, each in a session of its own, and
between any two of their operations anything else may happen that the rest of
the application does: a cancel, an operator's `mark_failed` or an import commits
its writes, a removal is registered or its registration taken back, a torrent is
removed from the client.

What the others commit follows from what was there. They create no rows and
revive none: a row that has finished stays so until a grab reuses it, and one
that finishes leaves no scope unresolved.

A grab that has come to its end gives its session back, which rolls back what it
has not committed.
-/

namespace PlexManager

namespace Grab

open Effects Interleaving KeyedTable

/-! ### A call -/

structure Call where
  args : GrabArgs
  session : Session
  program : Program Op Ans (Except GrabError Download × Bool)

def Call.start (fuel id : Nat) (args : GrabArgs) : Call :=
  { args, session := { id }, program := grab fuel args false }

def Call.outcome (a : Call) : Option (Except GrabError Download) :=
  match a.program with
  | .ret r => some r.1
  | .call _ _ => none

def Call.upcoming (a : Call) : Option Op :=
  match a.program with
  | .ret _ => none
  | .call op _ => some op

/-- One operation, or the end of the session. A write waits for the lock. -/
def Call.next (titles : Titles) (c : Choice) (s : Shared) (a : Call) : Shared × Call :=
  match a.program with
  | .ret _ => ((a.session.rollback s).1, { a with session := (a.session.rollback s).2 })
  | .call op next =>
      match exec titles op c (s, a.session) with
      | none => (s, a)
      | some (answer, s', v) => (s', { a with session := v, program := next answer })

/-! ### The others -/

/-- Every unresolved scope belongs to a row that is tracked. -/
def ScopesLive (db : Database) : Prop :=
  ∀ s ∈ db.scopes.rows, s.status.unresolved = true → db.Tracked s.torrentHash

instance (db : Database) : Decidable (ScopesLive db) :=
  inferInstanceAs (Decidable (∀ s ∈ db.scopes.rows, _ → _))

/-- What the others may commit over the rows they find. -/
structure Follows (db db' : Database) : Prop where
  hashes : db'.downloads.rows.map Download.torrentHash =
    db.downloads.rows.map Download.torrentHash
  finished : ∀ d ∈ db'.downloads.rows, d.active = true → db.Tracked d.torrentHash
  scopes : ScopesLive db'

instance (db db' : Database) : Decidable (Follows db db') :=
  decidable_of_iff
    (db'.downloads.rows.map Download.torrentHash = db.downloads.rows.map Download.torrentHash ∧
      (∀ d ∈ db'.downloads.rows, d.active = true → db.Tracked d.torrentHash) ∧ ScopesLive db')
    ⟨fun h => ⟨h.1, h.2.1, h.2.2⟩, fun h => ⟨h.hashes, h.finished, h.scopes⟩⟩

inductive Other where
  | commits (db : Database)
  | reserves (torrentHash : String)
  | releases (torrentHash : String)
  | removes (torrentHash : String)

def Other.next (s : Shared) : Other → Option Shared
  | .commits db =>
      if s.writer = none ∧ Follows s.db db then some (s.advance none db) else none
  | .reserves torrentHash => some { s with others := torrentHash :: s.others }
  | .releases torrentHash => some { s with others := s.others.erase torrentHash }
  | .removes torrentHash => some { s with client := s.client.filter (· ≠ torrentHash) }

/-! ### The world -/

abbrev World := Interleaving.World Shared Call

def World.idle (db : Database) (client : List String) : World :=
  { shared := { db, client, log := [⟨none, db⟩] }, actors := [] }

inductive Action where
  | arrive (fuel id : Nat) (args : GrabArgs)
  | act (i : Nat) (c : Choice)
  | other (e : Other)

/-- Whether an id is that of a session, or was that of one which committed. -/
def World.uses (w : World) (id : Nat) : Bool :=
  (w.actors.any fun a => a.session.id = id) || w.shared.log.any fun c => c.author = some id

/-- One step. Sessions are told apart by their ids. -/
def step (titles : Titles) (w : World) : Action → Option World
  | .arrive fuel id args =>
      if w.uses id then none else some (w.spawn (.start fuel id args))
  | .act i c => w.act (Call.next titles) i c
  | .other e => (e.next w.shared).map fun s => { w with shared := s }

end Grab

end PlexManager
