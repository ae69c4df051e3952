import PlexManager.Core.SafeFetch
import PlexManager.Lib.Transition

/-!
# Where the stored credentials go

Plex, the indexer and the download client are configured by an address and a credential
each. A save names any of them, and it may leave a credential out or send its mask: then
the stored one is kept. Where the address of a service changes to another base, its
credential has to be entered again. For Plex the new pair is tried on the server before
anything is written, and where no server is on record yet, so is the pair that is stored.

Saves are under one lock, and nobody else writes these settings, so that a check of a save
is one step. The clients of the services are built beside them, from an address and a
credential that are read one after the other, and they are used for as long as somebody
holds them.

Beside the state it is on record what was submitted by each save, and what was stored then.
-/

namespace PlexManager

namespace ServiceSettings

open TextCodec SafeFetch Transition

/-! ### Settings -/

inductive Service where
  | plex
  | prowlarr
  | qbittorrent
  deriving DecidableEq, Repr

/-- The fields that make up the clients: `plex_url`, `prowlarr_url` and `qbittorrent_url`,
    `plex_token`, `prowlarr_api_key` and `qbittorrent_password`, and
    `qbittorrent_username`. -/
inductive Field where
  | url (service : Service)
  | secret (service : Service)
  | qbittorrentUsername
  deriving DecidableEq, Repr

/-- The settings that are stored, with `PLEX_MACHINE_ID_SETTING`. -/
structure Stored where
  value : Field → Option String
  plexMachineIdentifier : Option String

abbrev SettingsUpdate := Field → Option (Option String)

def secretMask : String := "***"

variable (body : SettingsUpdate) (stored : Stored)

/-- The value of a field that is set and not `None`. -/
def SettingsUpdate.value (field : Field) : Option String :=
  (body field).join

/-- A credential that is submitted: neither left out nor masked. -/
def SettingsUpdate.submittedSecret (service : Service) : Option String :=
  (body.value (.secret service)).filter (· ≠ secretMask)

/-- A text that is there and not empty. -/
def truthy (value : Option String) : Bool := value.any (· ≠ "")

structure AppError where
  statusCode : Nat
  code : String
  message : String
  hint : String
  deriving DecidableEq, Repr

/-! ### The checks of a save -/

section
variable (parse : String → Option Text)

def sameServiceBase (left right : String) : Bool :=
  match parse left, parse right with
  | some l, some r => l = r
  | _, _ => false

/-- `ServiceUrl.parse(url).base` for an address as it is stored. -/
def serviceBase (httpx : Httpx) (netlocOk : Text → Bool) (url : String) : Option Text :=
  ServiceUrl.parse httpx netlocOk url.toList

def baseOf (url : Option String) : Option Text := url.bind parse

/-- A row of `protected`. -/
structure Protected where
  service : Service
  secretLabel : String
  emptySecretIsConfigured : Bool

/-- `protected`. -/
def protectedCredentials : List Protected :=
  [⟨.prowlarr, "Prowlarr API key", false⟩, ⟨.qbittorrent, "qBittorrent password", true⟩]

variable (stored : Stored) (body : SettingsUpdate)

/-- The credential that is stored would go to another base. -/
def reusesStored (p : Protected) : Bool :=
  match body.value (.url p.service) with
  | none => false
  | some submittedUrl =>
      if submittedUrl = "" then false
      else if (stored.value (.url p.service)).any fun storedUrl =>
          storedUrl ≠ "" && sameServiceBase parse submittedUrl storedUrl then false
      else
        let storedSecret := stored.value (.secret p.service)
        let storedCredentialExists :=
          if p.emptySecretIsConfigured then storedSecret.isSome else truthy storedSecret
        storedCredentialExists && (body.submittedSecret p.service).isNone

def Protected.error (p : Protected) : AppError where
  statusCode := 422
  code := "credential_reentry_required"
  message := "Changing the service address requires the " ++ p.secretLabel ++ " again."
  hint := "Re-enter the " ++ p.secretLabel ++
    " so a stored credential is never sent to a new destination."

def rejectChangedBaseStoredCredentialReuse :
    Option AppError :=
  (protectedCredentials.find? (reusesStored parse stored body)).map Protected.error

/-- What `_verify_plex_repoint` has to do. -/
inductive Repoint where
  | unchanged
  | incomplete
  | probe (url token : String)
  deriving DecidableEq, Repr

def plexReentry : AppError where
  statusCode := 422
  code := "credential_reentry_required"
  message := "Changing the Plex server address requires the Plex token again."
  hint := "Re-enter the Plex token so a stored credential is never sent to a new destination."

/-- `_verify_plex_repoint`, up to the first request. -/
def verifyPlexRepoint : Except AppError Repoint :=
  let submittedUrl := body.value (.url .plex)
  let submittedToken := body.submittedSecret .plex
  let storedUrl := stored.value (.url .plex)
  let storedToken := stored.value (.secret .plex)
  let identityChanged := (submittedUrl.isSome && submittedUrl ≠ storedUrl) ||
    (submittedToken.isSome && submittedToken ≠ storedToken)
  if !identityChanged then .ok .unchanged
  else match submittedUrl.or storedUrl, submittedToken.or storedToken with
    | some effectiveUrl, some effectiveToken =>
        if effectiveUrl = "" || effectiveToken = "" then .ok .incomplete
        else if submittedUrl.isSome && submittedToken.isNone && truthy storedToken &&
            !(storedUrl.any fun u => u ≠ "" && sameServiceBase parse effectiveUrl u) then
          .error plexReentry
        else .ok (.probe effectiveUrl effectiveToken)
    | _, _ => .ok .incomplete

end

/-! ### Saves -/

/-- A request of the verification: `/identity`, `/library/sections`, the resources of the
    caller's own account at plex.tv, and the name of the server. -/
inductive Rung where
  | identity
  | sections (machineIdentifier : String)
  | ownership (machineIdentifier : String)
  | label (machineIdentifier : String)
  deriving DecidableEq, Repr

/-- Whether the stored token is sent to the server. -/
def Rung.asksServer : Rung → Bool
  | ownership _ => false
  | _ => true

/-- A pair that is tried, for a change of the server or to record a missing anchor. -/
structure Probe where
  url : String
  token : String
  backfill : Bool
  rung : Rung := .identity
  deriving DecidableEq, Repr

/-- What becomes of the anchor. -/
inductive Change where
  | unchanged
  | incomplete
  | verified (machineIdentifier : String)
  | backfilled (machineIdentifier : String)
  deriving DecidableEq, Repr

inductive Phase where
  | waiting
  | locked
  | checked
  | probing (p : Probe)
  | ready (change : Change)
  | saved
  | refused (error : AppError)
  deriving DecidableEq, Repr

/-- `_backfill_missing_plex_anchor`, up to the first request. -/
def backfillMissingPlexAnchor (body : SettingsUpdate) : Phase :=
  let submitsPlexIdentity :=
    (body.value (.url .plex)).isSome || (body.value (.secret .plex)).isSome
  if !submitsPlexIdentity || truthy stored.plexMachineIdentifier then .ready .unchanged
  else match stored.value (.url .plex), stored.value (.secret .plex) with
    | some url, some token =>
        if url = "" || token = "" then .ready .unchanged
        else .probing { url, token, backfill := true }
    | _, _ => .ready .unchanged

def Probe.passed (p : Probe) (machineIdentifier : String) (name : Option String) : Phase :=
  if p.backfill then .ready (.backfilled machineIdentifier)
  else if name = none ∧ stored.plexMachineIdentifier = some machineIdentifier then
    .probing { p with rung := .label machineIdentifier }
  else .ready (.verified machineIdentifier)

/-- A rung has answered. Only a repoint is refused by it. -/
def Probe.next (stored : Stored) (plexSession : Bool) (p : Probe) :
    Except AppError String → Phase
  | .ok answer => match p.rung with
      | .identity => .probing { p with rung := .sections answer }
      | .sections machineIdentifier =>
          if plexSession then .probing { p with rung := .ownership machineIdentifier }
          else p.passed stored machineIdentifier none
      | .ownership machineIdentifier => p.passed stored machineIdentifier (some answer)
      | .label machineIdentifier => .ready (.verified machineIdentifier)
  | .error error => match p.rung with
      | .label machineIdentifier => .ready (.verified machineIdentifier)
      | _ => if p.backfill then .ready .unchanged else .refused error

def SettingsUpdate.written : Field → Option String
  | .secret service => body.submittedSecret service
  | field => body.value field

/-- `write_settings`. A relocation has the anchor that is stored. -/
def Stored.write (body : SettingsUpdate) (change : Change) : Stored where
  value field := (body.written field).or (stored.value field)
  plexMachineIdentifier := match change with
    | .unchanged => stored.plexMachineIdentifier
    | .incomplete => none
    | .verified machineIdentifier => some machineIdentifier
    | .backfilled machineIdentifier => some machineIdentifier

/-- A save, of an account of Plex or with a key. -/
structure Put where
  body : SettingsUpdate
  plexSession : Bool
  phase : Phase := .waiting

/-- What was submitted by a save, and what is stored after it. -/
structure Save where
  body : SettingsUpdate
  stored : Stored

/-- A request that carries a credential, and the save that tries it. -/
structure Request where
  service : Service
  base : Text
  credential : String
  own : Option Save := none

/-! ### Clients -/

/-- What a client is built from. -/
structure ClientKey where
  service : Service
  url : String
  username : Option String
  credential : String
  prowlarrUrl : Option String
  http : Nat
  deriving DecidableEq, Repr

/-- `PlexLibrary`, `ProwlarrIndexer` and `QbittorrentClient`, with the base their requests
    go to. -/
structure Client where
  service : Service
  base : Text
  credential : String
  deriving DecidableEq, Repr

/-- `_CachedProwlarr` and `_CachedQbittorrent`. -/
structure Cached where
  key : ClientKey
  client : Client
  deriving DecidableEq, Repr

/-- The constructors of the clients, which raise for an address that is none. -/
def ClientKey.build (parse : String → Option Text) (key : ClientKey) : Option Client :=
  (parse key.url).map fun base =>
    { service := key.service, base, credential := key.credential }

/-- `get_library`, `resolve_prowlarr`, `resolve_qbittorrent`, and the credentials of
    `GET /health`. -/
inductive Purpose where
  | library
  | prowlarr
  | qbittorrent
  | health
  deriving DecidableEq, Repr

def Purpose.reads : Purpose → List Field
  | library => [.url .plex, .secret .plex]
  | prowlarr => [.url .prowlarr, .secret .prowlarr]
  | qbittorrent =>
      [.url .qbittorrent, .qbittorrentUsername, .secret .qbittorrent, .url .prowlarr]
  | health =>
      [.url .plex, .secret .plex, .url .prowlarr, .secret .prowlarr, .url .qbittorrent,
        .qbittorrentUsername, .secret .qbittorrent]

def Purpose.services : Purpose → List Service
  | library => [.plex]
  | prowlarr => [.prowlarr]
  | qbittorrent => [.qbittorrent]
  | health => [.plex, .prowlarr, .qbittorrent]

/-- Whether there is one client for all who ask. -/
def Purpose.caches : Purpose → Bool
  | prowlarr => true
  | qbittorrent => true
  | _ => false

/-- Who reads the settings: what has been read, and what is still to be. Beside it stands
    the credential that was stored when the address was read. -/
structure Resolver where
  purpose : Purpose
  http : Nat
  todo : List Field
  got : Field → Option String := fun _ => none
  beside : Service → Option String := fun _ => none

/-- What a client is built from, or `none` for a `ServiceNotConfiguredError`. -/
def Resolver.key (r : Resolver) (service : Service) : Option ClientKey :=
  match r.got (.url service), r.got (.secret service) with
  | some url, some credential =>
      match service with
      | .qbittorrent =>
          if url ≠ "" && truthy (r.got .qbittorrentUsername) then some
            { service, url, username := r.got .qbittorrentUsername, credential
              prowlarrUrl := (r.got (.url .prowlarr)).filter (· ≠ ""), http := r.http }
          else none
      | _ =>
          if url ≠ "" && credential ≠ "" then some
            { service, url, username := none, credential, prowlarrUrl := none, http := r.http }
          else none
  | _, _ => none

/-- `store.get`. -/
def Resolver.read (field : Field) (todo : List Field) (r : Resolver) :
    Resolver where
  purpose := r.purpose
  http := r.http
  todo := todo
  got := Function.update r.got field (stored.value field)
  beside := match field with
    | .url service => Function.update r.beside service (stored.value (.secret service))
    | _ => r.beside

/-! ### All of them side by side -/

structure World where
  stored : Stored
  saves : List Save := []
  holder : Option Nat := none
  puts : List Put := []
  resolvers : List Resolver := []
  cached : Service → Option Cached := fun _ => none
  clients : List Client := []
  requests : List Request := []

inductive Event where
  | put (body : SettingsUpdate) (plexSession : Bool)
  | lock (i : Nat)
  | check (i : Nat)
  | verify (i : Nat)
  | probe (i : Nat) (answer : Except AppError String)
  | commit (i : Nat)
  | abort (i : Nat) (error : AppError)
  | resolve (purpose : Purpose) (http : Nat)
  | read (k : Nat)
  | request (n : Nat)

section
variable (parse : String → Option Text)

variable (w : World) (i : Nat) (p : Put)

def World.putPhase (phase : Phase) : World :=
  { w with puts := w.puts.set i { p with phase } }

/-- `async with _settings_update_lock`. -/
def World.lock : Option World :=
  if p.phase = .waiting ∧ w.holder = none then
    some { w.putPhase i p .locked with holder := some i }
  else none

def World.refuse (error : AppError) : World :=
  { w.putPhase i p (.refused error) with
    holder := if w.holder = some i then none else w.holder }

/-- A phase that is over with a refusal leaves the lock as well. -/
def World.goTo : Phase → World
  | .refused error => w.refuse i p error
  | phase => w.putPhase i p phase

def World.check : Option World :=
  if p.phase = .locked then
    match rejectChangedBaseStoredCredentialReuse parse w.stored p.body with
    | some error => some (w.refuse i p error)
    | none => some (w.putPhase i p .checked)
  else none

def World.verify : Option World :=
  if p.phase = .checked then
    match verifyPlexRepoint parse w.stored p.body with
    | .error error => some (w.refuse i p error)
    | .ok .unchanged => some (w.goTo i p (backfillMissingPlexAnchor w.stored p.body))
    | .ok .incomplete => some (w.putPhase i p (.ready .incomplete))
    | .ok (.probe url token) => some (w.putPhase i p (.probing { url, token, backfill := false }))
  else none

/-- A rung of the ladder. Nothing is sent to an address that is none, which is an error. -/
def World.probe (w : World) (i : Nat) (p : Put) (answer : Except AppError String) :
    Option World :=
  match p.phase with
  | .probing probe =>
      let w' := w.goTo i p (probe.next w.stored p.plexSession answer)
      if probe.rung.asksServer then
        match parse probe.url with
        | some base => some
            { w' with
              requests := w.requests ++ [
                { service := .plex, base, credential := probe.token
                  own := some ⟨p.body, w.stored.write p.body .unchanged⟩ }] }
        | none => if answer.isOk then none else some w'
      else some w'
  | _ => none

/-- `write_settings` and its commit. -/
def World.commit : Option World :=
  match p.phase with
  | .ready change =>
      let stored := w.stored.write p.body change
      some
        { w.putPhase i p .saved with
          stored
          saves := w.saves ++ [⟨p.body, stored⟩]
          holder := none }
  | _ => none

/-- A save is given up before it has committed. -/
def World.abort (error : AppError) : Option World :=
  match p.phase with
  | .saved => none
  | .refused _ => none
  | _ => some (w.refuse i p error)

/-- The client for a service, once everything is read. One that is kept is used again if
    it was built from the same values. -/
def World.build (w : World) (r : Resolver) (service : Service) : World :=
  match r.key service with
  | none => w
  | some key =>
      let kept := if r.purpose.caches then (w.cached service).filter fun c => c.key = key else none
      match kept with
      | some cached => { w with clients := w.clients ++ [cached.client] }
      | none => match key.build parse with
          | none => w
          | some client =>
              { w with
                clients := w.clients ++ [client]
                cached := if r.purpose.caches then
                  Function.update w.cached service (some ⟨key, client⟩) else w.cached }

/-- One statement of a reader, and the clients after the last one. -/
def World.read (w : World) (k : Nat) (r : Resolver) : Option World :=
  match r.todo with
  | [] => none
  | field :: todo =>
      let r' := r.read w.stored field todo
      let w' := { w with resolvers := w.resolvers.set k r' }
      some (if todo = [] then r.purpose.services.foldl (fun w s => w.build parse r' s) w' else w')

def step : Event → Option World
  | .put body plexSession => some { w with puts := w.puts ++ [{ body, plexSession }] }
  | .lock i => w.puts[i]?.bind fun p => w.lock i p
  | .check i => w.puts[i]?.bind fun p => w.check parse i p
  | .verify i => w.puts[i]?.bind fun p => w.verify parse i p
  | .probe i answer => w.puts[i]?.bind fun p => w.probe parse i p answer
  | .commit i => w.puts[i]?.bind fun p => w.commit i p
  | .abort i error => w.puts[i]?.bind fun p => w.abort i p error
  | .resolve purpose http => some
      { w with resolvers := w.resolvers ++ [{ purpose, http, todo := purpose.reads }] }
  | .read k => w.resolvers[k]?.bind fun r => w.read parse k r
  | .request n => w.clients[n]?.map fun c =>
      { w with
        requests := w.requests ++ [
          { service := c.service, base := c.base, credential := c.credential }] }

end

end ServiceSettings

end PlexManager
