import Mathlib.Data.List.Basic

/-!
# The hub of realtime events

Browsers are told what has changed by events. Each of them has a bounded queue at one hub,
into which every event is put. A queue that is full is replaced by one event that stands
for all of them. The server ends a stream by closing its subscription: what is queued is
dropped, and the last thing a reader finds is why.

A subscription is known by its number, counted from the first. It is in the set of
subscribers as long as it is `subscribed`.
-/

namespace PlexManager

namespace Realtime

structure RealtimeEvent where
  seq : Nat
  topics : List String
  reason : String
  appVersion : Option String := none
  deriving DecidableEq, Repr

/-- An event, or `_StreamClosed`. -/
inductive Item where
  | event (e : RealtimeEvent)
  | streamClosed (reason : Option String)
  deriving DecidableEq, Repr

structure EventSubscription where
  authMethod : Option String
  userId : Option Nat
  queue : List Item := []
  closed : Bool := false
  subscribed : Bool := true
  deriving DecidableEq, Repr

namespace EventSubscription

variable (s : EventSubscription)

def replaceWith (e : RealtimeEvent) : EventSubscription := { s with queue := [.event e] }

def enqueue (maxQueueSize : Nat) (e : RealtimeEvent) : EventSubscription :=
  if s.closed then s
  else if s.queue.length < maxQueueSize then { s with queue := s.queue ++ [.event e] }
  else s.replaceWith { seq := e.seq, topics := ["sync"], reason := "overflow" }

def close (reason : Option String) : EventSubscription :=
  if s.closed then s
  else { s with closed := true, subscribed := false, queue := [.streamClosed reason] }

/-- What `get` takes from the queue, which waits while there is nothing. The sentinel is
    found in a subscription that is closed already. -/
def get : Option (Item × EventSubscription) :=
  match s.queue with
  | [] => none
  | item :: rest => some (item, { s with queue := rest })

/-- Whether `close_matching` is about the subscription. -/
def isMatching (authMethod : Option String) (userId : Option Nat) : Bool :=
  authMethod.all (fun m => s.authMethod = some m) && userId.all fun id => s.userId = some id

end EventSubscription

/-- A queue has room for one event at least. -/
structure EventHub where
  maxQueueSize : Nat := 32
  positive : 0 < maxQueueSize := by decide
  appVersion : Option String := none
  nextSeq : Nat := 1
  subscriptions : List EventSubscription := []

namespace EventHub

variable (hub : EventHub)

def modify (k : Nat) (f : EventSubscription → EventSubscription) : EventHub :=
  { hub with subscriptions := hub.subscriptions.modify k f }

def subscribe (authMethod : Option String) (userId : Option Nat) : Nat × EventHub :=
  let subscription : EventSubscription := { authMethod, userId }
  let connected := subscription.enqueue hub.maxQueueSize
    { seq := hub.nextSeq - 1, topics := ["sync"], reason := "connected"
      appVersion := hub.appVersion }
  (hub.subscriptions.length, { hub with subscriptions := hub.subscriptions ++ [connected] })

/-- `publish`, or `none` for its `ValueError`. -/
def publish (topics : List String) (reason : String) : Option (RealtimeEvent × EventHub) :=
  if topics = [] then none
  else
    let event : RealtimeEvent := { seq := hub.nextSeq, topics := topics.eraseDups, reason }
    some (event,
      { hub with
        nextSeq := hub.nextSeq + 1
        subscriptions := hub.subscriptions.map fun s =>
          if s.subscribed then s.enqueue hub.maxQueueSize event else s })

def closeMatching (reason : String) (authMethod : Option String) (userId : Option Nat) :
    EventHub :=
  { hub with
    subscriptions := hub.subscriptions.map fun s =>
      if s.subscribed && s.isMatching authMethod userId then s.close (some reason) else s }

end EventHub

end Realtime

end PlexManager
