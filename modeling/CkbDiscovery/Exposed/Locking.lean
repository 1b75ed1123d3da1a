import CkbDiscovery.Effect.Locks
import CkbDiscovery.Exposed.Health
import CkbDiscovery.Exposed.Served
import CkbDiscovery.Exposed.Worker

/-! The query service with all its locks: any number of workers, each with a
cache behind two locks of its own, and one connection to Redis that they share. -/

namespace CkbDiscovery.Exposed

open Effect Redis Marci
open Relation (ReflTransGen)

inductive ServiceLock where
  | client
  | data (worker : Nat)
  | lastCacheUpdate (worker : Nat)
  deriving DecidableEq

inductive ServiceCall (F64 : Type) where
  | redis (command : Command)
  | systemTime
  | data (worker : Nat)
  | setData (worker : Nat) (peers : List (Peer F64))
  | lastCacheUpdate (worker : Nat)
  | setLastCacheUpdate (worker now : Nat)

abbrev ServiceCall.Reply {F64 : Type} : ServiceCall F64 → Type
  | .redis command => ReadReply command
  | .systemTime => Nat
  | .data _ => List (Peer F64)
  | .setData .. => Unit
  | .lastCacheUpdate _ => Nat
  | .setLastCacheUpdate .. => Unit

abbrev Serving (F64 : Type) := Task ServiceLock (@ServiceCall.Reply F64)

inductive HttpResponse (F64 : Type) where
  | peers (peers : List (Peer F64))
  | peerStatus (status : PeerStatus F64)
  | serviceStatus (status : ServiceStatus)
  | internalServerError

/-- The routes with a handler that waits for something. -/
inductive HttpRequest where
  | peer (network : String)
  | peerStatus (peerId : String)
  | health

variable {F64 : Type}

def serving (question : ServiceCall F64) : Serving F64 question.Reply := Task.call question

/-- All commands of a reading, behind the lock of the connection. -/
def reading (program : Program ReadReply α) : Serving F64 α :=
  Task.holding .client (program.translate fun command => serving (.redis command))

namespace Locked

/-- Each operand of the condition drops its guard before the next one is looked at. -/
def cacheOutdated (worker : Nat) : Serving F64 Bool := do
  let data ← Task.holding (.data worker) (serving (.data worker))
  if data.isEmpty then pure true
  else
    let now ← serving .systemTime
    let stamp ← Task.holding (.lastCacheUpdate worker) (serving (.lastCacheUpdate worker))
    pure (decide (30 < ageInSeconds now stamp))

/-- With the guard of the list in hand. -/
def fillCache (worker : Nat) (peers : List (Peer F64)) : Serving F64 (HttpResponse F64) := do
  serving (.setData worker peers)
  Task.holding (.lastCacheUpdate worker) do
    let now ← serving .systemTime
    serving (.setLastCacheUpdate worker now)
  let data ← serving (.data worker)
  Task.unlock (.data worker)
  pure (.peers data)

variable (formats : Formats F64)

def peerHandler (worker : Nat) (network : CKBNetworkType) : Serving F64 (HttpResponse F64) := do
  if ← cacheOutdated worker then
    match ← reading (callGetPeers formats network) with
    | .ok peers => if ← Task.tryLock (.data worker) then fillCache worker peers else pure (.peers peers)
    | .error _ => pure .internalServerError
  else
    let data ← Task.holding (.data worker) (serving (.data worker))
    pure (.peers data)

def peerInMap (peerId : String) : Serving F64 (HttpResponse F64) := do
  let status ← reading (Exposed.peerInMap formats peerId)
  pure (.peerStatus status)

def lastUpdateHandler : Serving F64 (HttpResponse F64) := do
  match ← reading (lastUpdate formats) with
  | .ok status => pure (.serviceStatus status)
  | .error _ => pure .internalServerError

def route (worker : Nat) : HttpRequest → Serving F64 (HttpResponse F64)
  | .peer network => peerHandler formats worker (.ofString network)
  | .peerStatus peerId => peerInMap formats peerId
  | .health => lastUpdateHandler formats

end Locked

variable (formats : Formats F64)

/-- The Redis server, and the cells of the workers. -/
structure Backend (State F64 : Type) where
  server : State
  data : Nat → List (Peer F64)
  lastCacheUpdate : Nat → Nat

/-- The clock reads anything. -/
inductive BackendAnswers {State : Type} (world : World State ReadReply) :
    Backend State F64 → (call : ServiceCall F64) → call.Reply → Backend State F64 → Prop where
  | redis (answers : world.answers backend.server command reply later) :
      BackendAnswers world backend (.redis command) reply { backend with server := later }
  | systemTime : BackendAnswers world backend .systemTime now backend
  | data : BackendAnswers world backend (.data worker) (backend.data worker) backend
  | setData : BackendAnswers world backend (.setData worker peers) ()
      { backend with data := Function.update backend.data worker peers }
  | lastCacheUpdate :
      BackendAnswers world backend (.lastCacheUpdate worker) (backend.lastCacheUpdate worker) backend
  | setLastCacheUpdate : BackendAnswers world backend (.setLastCacheUpdate worker now) ()
      { backend with lastCacheUpdate := Function.update backend.lastCacheUpdate worker now }

inductive BackendDrifts {State : Type} (world : World State ReadReply) :
    Backend State F64 → Backend State F64 → Prop where
  | server (drifts : world.drifts backend.server later) :
      BackendDrifts world backend { backend with server := later }

def backendWorld {State : Type} (world : World State ReadReply) :
    World (Backend State F64) (@ServiceCall.Reply F64) :=
  ⟨BackendAnswers world, BackendDrifts world⟩

/-- A worker that fills its cache takes the lock of the time stamp while it holds
that of the list. -/
inductive Below : ServiceLock → ServiceLock → Prop where
  | stamp : Below (.data worker) (.lastCacheUpdate worker)

theorem below_ascends : WellFounded (flip Below) := by
  have stamped : ∀ worker, Acc (flip Below) (.lastCacheUpdate worker) := by
    intro worker
    constructor
    intro lock above
    cases above
  constructor
  intro lock
  cases lock with
  | client =>
    constructor
    intro lock above
    cases above
  | data worker =>
    constructor
    intro lock above
    cases above
    exact stamped worker
  | lastCacheUpdate worker => exact stamped worker

theorem ordered_serving {held : Set ServiceLock} (question : ServiceCall F64) :
    (serving question).Ordered Below held held :=
  fun _ => rfl

/-- With no other lock in hand, any may be taken. -/
theorem ordered_alone {lock : ServiceLock} {body : Serving F64 α} (inside : body.Ordered Below {lock} {lock}) :
    (Task.holding lock body).Ordered Below ∅ ∅ :=
  .holding (by simp) (by simp) (by rwa [insert_empty_eq])

theorem ordered_reading (program : Program ReadReply α) :
    (reading program : Serving F64 α).Ordered Below ∅ ∅ :=
  ordered_alone (.translate (fun command => ordered_serving (.redis command)) program)

/-- With the lock of the list in hand, the one of the time stamp may be taken. -/
theorem ordered_stamping {worker : Nat} {body : Serving F64 α}
    (inside : body.Ordered Below {.lastCacheUpdate worker, .data worker} {.lastCacheUpdate worker, .data worker}) :
    (Task.holding (.lastCacheUpdate worker) body).Ordered Below {.data worker} {.data worker} :=
  .holding (by rintro _ rfl; exact .stamp) (by simp) inside

theorem ordered_cacheOutdated (worker : Nat) :
    (Locked.cacheOutdated worker : Serving F64 _).Ordered Below ∅ ∅ := by
  refine (ordered_alone (ordered_serving _)).andThen fun data => ?_
  split
  · rfl
  · exact (ordered_serving .systemTime).andThen fun now =>
      (ordered_alone (ordered_serving _)).andThen fun stamp => rfl

theorem ordered_fillCache (worker : Nat) (peers : List (Peer F64)) :
    (Locked.fillCache worker peers).Ordered Below ∅ {.data worker} := by
  have releases : ∀ data : List (Peer F64), (do
      Task.unlock (.data worker)
      pure (.peers data) : Serving F64 (HttpResponse F64)).Ordered Below ∅ {.data worker} :=
    fun data => ⟨rfl, Set.sdiff_self⟩
  refine (ordered_serving _).andThen fun _ => ?_
  refine (ordered_stamping ?_).andThen fun _ => (ordered_serving (.data worker)).andThen releases
  exact (ordered_serving .systemTime).andThen fun now => ordered_serving (.setLastCacheUpdate worker now)

/-- Every handler takes its locks in order and gives them back, whatever it meets. -/
theorem ordered_route (worker : Nat) (request : HttpRequest) :
    (Locked.route formats worker request).Ordered Below ∅ ∅ := by
  cases request with
  | peer network =>
    refine (ordered_cacheOutdated worker).andThen fun outdated => ?_
    cases outdated with
    | true =>
      refine (ordered_reading _).andThen fun listed => ?_
      cases listed with
      | ok peers =>
        refine ⟨?_, rfl⟩
        rw [insert_empty_eq]
        exact ordered_fillCache worker peers
      | error error => rfl
    | false =>
      exact (ordered_alone (ordered_serving _)).andThen fun data => rfl
  | peerStatus peerId => exact (ordered_reading _).andThen fun status => rfl
  | health =>
    refine (ordered_reading _).andThen fun status => ?_
    cases status <;> rfl

/-- A request that reaches some worker. -/
def Routed (task : Serving F64 (HttpResponse F64)) : Prop :=
  ∃ worker request, task = Locked.route formats worker request

abbrev Requests (State F64 : Type) := Crowd ServiceLock (@ServiceCall.Reply F64) (Backend State F64) (HttpResponse F64)

variable {State : Type} {world : World State ReadReply}

theorem backend_answers (answered : ∀ (server : State) command, ∃ reply later, world.answers server command reply later)
    (backend : Backend State F64) (call : ServiceCall F64) :
    ∃ reply later, (backendWorld world).answers backend call reply later := by
  cases call with
  | redis command =>
    obtain ⟨reply, later, answers⟩ := answered backend.server command
    exact ⟨reply, _, .redis answers⟩
  | systemTime => exact ⟨(0 : Nat), _, .systemTime⟩
  | data worker => exact ⟨_, _, .data⟩
  | setData worker peers => exact ⟨(), _, .setData⟩
  | lastCacheUpdate worker => exact ⟨_, _, .lastCacheUpdate⟩
  | setLastCacheUpdate worker now => exact ⟨(), _, .setLastCacheUpdate⟩

/-- As long as Redis answers, no request hangs: whatever has come in at any worker
and however the handlers are scheduled, each of them comes to its end, and the
locks are free then. -/
theorem requests_settle (answered : ∀ (server : State) command, ∃ reply later, world.answers server command reply later)
    {opened : Backend State F64} {requests : Requests State F64}
    (reachable : ReflTransGen (Bustles (backendWorld world) (Routed formats)) (.opened opened) requests) :
    Inevitably (Passes (backendWorld world)) (Settled requests.ids) requests := by
  have inOrder : ∀ {task}, Routed formats task → task.Ordered Below ∅ ∅ := by
    rintro _ ⟨worker, request, rfl⟩
    exact ordered_route formats worker request
  exact (reachable_disciplined inOrder reachable).settles (backend_answers answered) below_ascends

/-- Each command is carried out or refused. -/
theorem besideServing_answers (config : Config) (serde : Serde) (moment : Concurrent) (command : Command) :
    ∃ reply later, (besideServing config serde).answers moment command reply later := by
  cases executed : execute .sorted moment.state.redis command with
  | ok answer => exact ⟨.ok answer.1, _, .answered (.answer executed)⟩
  | error error => exact ⟨.error error, _, .refused executed⟩

/-- Two requests at one worker and one at another, before any has been looked at. -/
def waitingRequests : Requests Concurrent Unit where
  outside := ⟨⟨.initial 0, .done ()⟩, fun _ => [], fun _ => 0⟩
  holder _ := none
  tasks := [(0, Locked.route sampleFormats 0 (.peer "mirana")), (1, Locked.route sampleFormats 0 .health),
    (2, Locked.route sampleFormats 1 (.peer "testnet"))]
  ended := []

theorem requests_settle_waiting : Inevitably (Passes (backendWorld (besideServing sampleConfig .unary)))
    (Settled [0, 1, 2]) waitingRequests := by
  have reachable : ReflTransGen (Bustles (backendWorld (besideServing sampleConfig .unary)) (Routed sampleFormats))
      (.opened waitingRequests.outside) waitingRequests :=
    (((ReflTransGen.refl.tail (.arrive ⟨0, .peer "mirana", rfl⟩ (by decide))).tail
      (.arrive ⟨0, .health, rfl⟩ (by decide))).tail (.arrive ⟨1, .peer "testnet", rfl⟩ (by decide)))
  exact requests_settle sampleFormats (besideServing_answers sampleConfig .unary) reachable

end CkbDiscovery.Exposed
