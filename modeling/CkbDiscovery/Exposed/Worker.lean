import CkbDiscovery.Exposed.Peers
import CkbDiscovery.Redis.Snapshot

/-! The `/peer` endpoint of one worker: requests that share one cached list, its
time stamp and the lock around both, interleaved wherever a handler waits. -/

namespace CkbDiscovery.Exposed

open Effect Redis Program

abbrev ReadTrace := List (Event Store ReadReply)

/-- How the server takes a command. -/
inductive Service where
  | answered (order : Enumeration)
  | failed (error : RedisError)

def Service.reply : Service → Store → (command : Command) → ReadReply command
  | answered order, store, command => snapshot order store command
  | failed error, _, _ => .error error

/-- Where a handler waits: for the data lock in `arrived` and in `reading`, for the
lock of the time stamp in `measuring` and in `stamping`. Only the latter has the
data lock in hand, since each operand of `||` drops its own guard. -/
inductive Phase (F64 : Type) where
  | arrived
  | measuring (now : Nat)
  | listing (trace : ReadTrace) (rest : Program ReadReply (Except RedisError (List (Peer F64))))
  | stamping (trace : ReadTrace)
  | reading (now seen : Nat)

structure Request (F64 : Type) where
  network : CKBNetworkType
  phase : Phase F64

/-- A list put in the cache, with the call it came from. -/
structure Fill (F64 : Type) where
  network : CKBNetworkType
  trace : ReadTrace
  peers : List (Peer F64)
  stamp : Nat

/-- Listed for the request itself, or taken from the cache after a reading of
the clock and some number of fills. -/
inductive Source where
  | listed (trace : ReadTrace)
  | cached (now seen : Nat)

/-- An answer with status 200. -/
structure Response (F64 : Type) where
  network : CKBNetworkType
  peers : List (Peer F64)
  source : Source

/-- Clock readings count nanoseconds. Fills and responses are a record of the
past, latest first, that no handler looks at. -/
structure Worker (F64 : Type) where
  store : Store
  data : List (Peer F64)
  lastCacheUpdate : Nat
  holder : Option Nat
  requests : Nat → Option (Request F64)
  fills : List (Fill F64)
  responses : List (Response F64)

variable {F64 : Type} (formats : Formats F64)

namespace Worker

def started (store : Store) : Worker F64 := ⟨store, [], 0, none, fun _ => none, [], []⟩

def place (worker : Worker F64) (id : Nat) (request : Option (Request F64)) : Worker F64 :=
  { worker with requests := Function.update worker.requests id request }

def respond (worker : Worker F64) (id : Nat) (response : Response F64) : Worker F64 :=
  { worker.place id none with responses := response :: worker.responses }

end Worker

/-- `duration_since` of a later time counts as zero. -/
def ageInSeconds (now stamp : Nat) : Nat := (now - stamp) / 1000000000

def callGetPeers (network : CKBNetworkType) : Program ReadReply (Except RedisError (List (Peer F64))) :=
  (getPeers formats network : Query ReadReply _).run

/-- What happens next: the store changes, a request comes in, a handler that waits
for the data lock is given it, or a handler goes on to where it waits again. -/
inductive Action where
  | evolve (store : Store)
  | arrive (id : Nat) (query : String)
  | acquire (id : Nat)
  | check (id now : Nat)
  | measure (id : Nat)
  | command (id : Nat) (service : Service)
  | conclude (id : Nat)
  | stamp (id now : Nat)
  | read (id : Nat)

/-- An action that is not enabled has no successor. -/
def Worker.step (worker : Worker F64) : Action → Option (Worker F64)
  | .evolve store => some { worker with store }
  | .arrive id query =>
    match worker.requests id with
    | none => some (worker.place id (some ⟨.ofString query, .arrived⟩))
    | some _ => none
  -- a freed lock goes to the next in line before that handler runs again
  | .acquire id =>
    match worker.requests id, worker.holder with
    | some ⟨_, .arrived⟩, none | some ⟨_, .reading _ _⟩, none => some { worker with holder := some id }
    | _, _ => none
  | .check id now =>
    match worker.requests id with
    | some ⟨network, .arrived⟩ =>
      if worker.holder = some id then
        let next : Phase F64 :=
          if worker.data.isEmpty then .listing [] (callGetPeers formats network) else .measuring now
        some { worker.place id (some ⟨network, next⟩) with holder := none }
      else none
    | _ => none
  | .measure id =>
    match worker.requests id with
    | some ⟨network, .measuring now⟩ =>
      let next : Phase F64 :=
        if 30 < ageInSeconds now worker.lastCacheUpdate then .listing [] (callGetPeers formats network)
        else .reading now worker.fills.length
      some (worker.place id (some ⟨network, next⟩))
    | _ => none
  | .command id service =>
    match worker.requests id with
    | some ⟨network, .listing trace (.ask command next)⟩ =>
      let reply := service.reply worker.store command
      some (worker.place id (some ⟨network, .listing (trace ++ [⟨worker.store, command, reply⟩])
        (next reply)⟩))
    | _ => none
  | .conclude id =>
    match worker.requests id with
    | some ⟨network, .listing trace (.done (.ok peers))⟩ =>
      match worker.holder with
      | none => some { worker.place id (some ⟨network, .stamping trace⟩) with
          data := peers
          holder := some id }
      | some _ => some (worker.respond id ⟨network, peers, .listed trace⟩)
    | some ⟨_, .listing _ (.done (.error _))⟩ => some (worker.place id none)
    | _ => none
  | .stamp id now =>
    match worker.requests id with
    | some ⟨network, .stamping trace⟩ =>
      some { worker.respond id ⟨network, worker.data, .listed trace⟩ with
        lastCacheUpdate := now
        holder := none
        fills := ⟨network, trace, worker.data, now⟩ :: worker.fills }
    | _ => none
  | .read id =>
    match worker.requests id with
    | some ⟨network, .reading now seen⟩ =>
      if worker.holder = some id then
        some { worker.respond id ⟨network, worker.data, .cached now seen⟩ with holder := none }
      else none
    | _ => none

/-- The workers that actions lead to, each of which meets a condition. -/
inductive Reached (meets : Worker F64 → Action → Prop) : Worker F64 → Prop where
  | started : Reached meets (.started store)
  | step (earlier : Reached meets worker) (met : meets worker action)
      (stepped : worker.step formats action = some next) : Reached meets next

/-- The list is what a call of `get_peers` for the network made of the answers it got. -/
structure Computed (network : CKBNetworkType) (trace : ReadTrace) (peers : List (Peer F64)) : Prop where
  follows : Follows (callGetPeers formats network) trace (.done (.ok peers))
  served : ∀ event ∈ trace, ∃ service : Service, event.reply = service.reply event.before event.question

/-- A call whose commands all met one store lists what that store has. -/
theorem Computed.snapshot {formats : Formats F64} {network : CKBNetworkType} {trace : ReadTrace}
    {peers : List (Peer F64)} (computed : Computed formats network trace peers) {order : Enumeration}
    {store : Store}
    (steady : ∀ event ∈ trace, event.reply = Service.reply (.answered order) store event.question) :
    (callGetPeers formats network).evaluate (Redis.snapshot order store) = some (.ok peers) :=
  computed.follows.evaluate steady

/-- Filled since the decision, or at most 30 seconds before it. -/
def Timely (fills : List (Fill F64)) (now seen : Nat) (fill : Fill F64) : Prop :=
  fill ∈ fills.take (fills.length - seen) ∨ fill ∈ fills ∧ ageInSeconds now fill.stamp ≤ 30

/-- A response is a list of the network that was asked for, computed for the
request or in time before. -/
def Transparent (fills : List (Fill F64)) (response : Response F64) : Prop :=
  match response.source with
  | .listed trace => Computed formats response.network trace response.peers
  | .cached now seen => ∃ fill, Timely fills now seen fill ∧ fill.network = response.network ∧
      Computed formats response.network fill.trace response.peers

/-- The list of the latest fill is in the cell. -/
def Synced (worker : Worker F64) : Prop :=
  match worker.fills with
  | [] => worker.data = []
  | fill :: _ => worker.data = fill.peers

def Request.Stamping (request : Request F64) : Prop := ∃ trace, request.phase = .stamping trace

/-- No list has been put in the cell that is still to be stamped. -/
def Unstamping (worker : Worker F64) : Prop :=
  ∀ id, ∀ request ∈ worker.requests id, ¬ request.Stamping

/-- What is known of a request by where it waits. -/
def Sound (worker : Worker F64) (id : Nat) (request : Request F64) : Prop :=
  match request.phase with
  | .arrived => True
  | .measuring _ => worker.fills ≠ []
  | .listing trace rest => Follows (callGetPeers formats request.network) trace rest ∧
      ∀ event ∈ trace, ∃ service : Service, event.reply = service.reply event.before event.question
  | .stamping trace => worker.holder = some id ∧ Computed formats request.network trace worker.data
  | .reading now seen => seen ≤ worker.fills.length ∧
      ∃ fill, worker.fills.head? = some fill ∧ Timely worker.fills now seen fill

structure Consistent (worker : Worker F64) : Prop where
  sound : ∀ {id request}, worker.requests id = some request → Sound formats worker id request
  synced : Unstamping worker → Synced worker
  stamped : ∀ fill ∈ worker.fills.head?, worker.lastCacheUpdate = fill.stamp
  filled : ∀ fill ∈ worker.fills, Computed formats fill.network fill.trace fill.peers

variable {formats} {worker next : Worker F64} {id : Nat}

theorem sound_listing (network : CKBNetworkType) :
    Sound formats next id ⟨network, .listing [] (callGetPeers formats network)⟩ :=
  ⟨.start, by simp⟩

/-- A step that leaves the cell, its lock and the fills alone. -/
theorem Sound.same {request : Request F64} (sound : Sound formats worker id request)
    (holder : next.holder = worker.holder) (data : next.data = worker.data)
    (fills : next.fills = worker.fills) : Sound formats next id request := by
  unfold Sound at *
  rwa [holder, data, fills]

/-- A request that does not hold the lock is not affected by the one that does. -/
theorem Sound.beside {request : Request F64} (sound : Sound formats worker id request)
    (other : worker.holder ≠ some id)
    (grown : next.fills = worker.fills ∨ ∃ fill, next.fills = fill :: worker.fills) :
    Sound formats next id request := by
  unfold Sound at *
  split
  · trivial
  · rename_i phase
    rw [phase] at sound
    rcases grown with same | ⟨fresh, same⟩
    · rwa [same]
    · rw [same]
      exact List.cons_ne_nil fresh _
  · rename_i phase
    rw [phase] at sound
    exact sound
  · rename_i phase
    rw [phase] at sound
    exact absurd sound.1 other
  · rename_i now seen phase
    rw [phase] at sound
    obtain ⟨met, fill, latest, timely⟩ := sound
    rcases grown with same | ⟨fresh, same⟩
    · rw [same]
      exact ⟨met, fill, latest, timely⟩
    · rw [same]
      refine ⟨by rw [List.length_cons]; omega, fresh, rfl, .inl ?_⟩
      rw [List.length_cons, Nat.succ_sub met]
      exact List.mem_cons_self

/-- While one request holds the lock without stamping, the cell is in order. -/
theorem Consistent.synced_of_holder (consistent : Consistent formats worker) {request : Request F64}
    (requested : worker.requests id = some request) (unstamping : ¬ request.Stamping)
    (held : worker.holder = some id) : Synced worker := by
  refine consistent.synced fun other found present stamping => ?_
  obtain ⟨trace, phase⟩ := stamping
  have sound := consistent.sound present
  rw [Sound, phase] at sound
  obtain rfl := Option.some.inj (held.symm.trans sound.1)
  obtain rfl := Option.some.inj (requested.symm.trans present)
  exact unstamping ⟨trace, phase⟩

/-- Where one request goes on and the others stay. -/
theorem Consistent.place {request : Option (Request F64)}
    (consistent : Consistent formats worker)
    (placed : next.requests = Function.update worker.requests id request)
    (own : ∀ placed ∈ request, Sound formats next id placed)
    (others : ∀ other found, other ≠ id → Sound formats worker other found →
      Sound formats next other found)
    (synced : Unstamping next → Synced next)
    (stamped : ∀ fill ∈ next.fills.head?, next.lastCacheUpdate = fill.stamp)
    (filled : ∀ fill ∈ next.fills, Computed formats fill.network fill.trace fill.peers) :
    Consistent formats next where
  sound {other found} present := by
    rw [placed] at present
    by_cases same : other = id
    · subst same
      rw [Function.update_self] at present
      exact own found present
    · rw [Function.update_of_ne same] at present
      exact others other found same (consistent.sound present)
  synced := synced
  stamped := stamped
  filled := filled

/-- The same for a step that does not touch the cell, and gives back the lock at most. -/
theorem Consistent.move {request : Option (Request F64)} (consistent : Consistent formats worker)
    (earlier : ∀ found ∈ worker.requests id, ¬ found.Stamping)
    (placed : next.requests = Function.update worker.requests id request)
    (own : ∀ placed ∈ request, Sound formats next id placed)
    (holder : next.holder = worker.holder ∨ worker.holder = some id) (data : next.data = worker.data)
    (stamp : next.lastCacheUpdate = worker.lastCacheUpdate) (fills : next.fills = worker.fills) :
    Consistent formats next := by
  refine consistent.place placed own (fun other found different sound => ?_) (fun unstamping => ?_) ?_ ?_
  · rcases holder with kept | held
    · exact sound.same kept data fills
    · refine sound.beside ?_ (.inl fills)
      rw [held]
      exact fun same => different (Option.some.inj same).symm
  · unfold Synced
    rw [fills, data]
    refine consistent.synced fun other found present => ?_
    by_cases same : other = id
    · subst same
      exact earlier found present
    · apply unstamping other found
      rwa [placed, Function.update_of_ne same]
  · rw [fills, stamp]
    exact consistent.stamped
  · rw [fills]
    exact consistent.filled

theorem consistent_started (store : Store) : Consistent formats (.started store) where
  sound present := by cases present
  synced _ := rfl
  stamped := nofun
  filled _ member := by cases member

/-- What is decided before a list is computed or taken from the cache. -/
theorem unstamping_of {network : CKBNetworkType} {phase : Phase F64}
    (requested : worker.requests id = some ⟨network, phase⟩) (other : ∀ trace, phase ≠ .stamping trace) :
    ∀ found ∈ worker.requests id, ¬ found.Stamping := by
  rintro found present ⟨trace, same⟩
  obtain rfl := Option.some.inj (requested.symm.trans present)
  exact other trace same

/-- The lock is given to a request that waits for it. -/
theorem Consistent.acquire (consistent : Consistent formats worker)
    (stepped : worker.step formats (.acquire id) = some next) : Consistent formats next := by
  have taken : worker.holder = none ∧ next = { worker with holder := some id } := by
    simp only [Worker.step] at stepped
    split at stepped
    · rename_i free
      exact ⟨free, (Option.some.inj stepped).symm⟩
    · rename_i free
      exact ⟨free, (Option.some.inj stepped).symm⟩
    · cases stepped
  obtain ⟨free, rfl⟩ := taken
  refine ⟨fun present => ?_, consistent.synced, consistent.stamped, consistent.filled⟩
  exact (consistent.sound present).beside (by rw [free]; nofun) (.inl rfl)

/-- Only a cache that was filled is measured. -/
theorem Consistent.check {now : Nat} (consistent : Consistent formats worker)
    (stepped : worker.step formats (.check id now) = some next) : Consistent formats next := by
  simp only [Worker.step] at stepped
  split at stepped
  · rename_i network requested
    split at stepped
    · rename_i held
      cases stepped
      refine consistent.move (unstamping_of requested nofun) rfl ?_ (.inr held) rfl rfl rfl
      intro placed same
      cases same
      split
      · exact sound_listing network
      · rename_i present
        intro unfilled
        have synced := consistent.synced_of_holder requested (unstamping_of requested nofun _ requested) held
        have empty : worker.data = [] := by simpa [Synced, show worker.fills = [] from unfilled] using synced
        exact present (by rw [empty]; rfl)
    · cases stepped
  · cases stepped

theorem Consistent.measure (consistent : Consistent formats worker)
    (stepped : worker.step formats (.measure id) = some next) : Consistent formats next := by
  simp only [Worker.step] at stepped
  split at stepped
  · rename_i network now requested
    cases stepped
    have filled : worker.fills ≠ [] := consistent.sound requested
    refine consistent.move (unstamping_of requested nofun) rfl ?_ (.inl rfl) rfl rfl rfl
    intro placed same
    cases same
    split
    · exact sound_listing network
    · rename_i young
      obtain ⟨fill, rest, fills⟩ := List.exists_cons_of_ne_nil filled
      have stamped := consistent.stamped fill (congrArg List.head? fills)
      refine ⟨le_rfl, fill, congrArg List.head? fills, .inr ⟨?_, ?_⟩⟩
      · exact fills ▸ List.mem_cons_self
      · rw [← stamped]
        omega
  · cases stepped

theorem Consistent.command {service : Service} (consistent : Consistent formats worker)
    (stepped : worker.step formats (.command id service) = some next) : Consistent formats next := by
  simp only [Worker.step] at stepped
  split at stepped
  · rename_i network trace command rest requested
    cases stepped
    obtain ⟨follows, served⟩ := consistent.sound requested
    refine consistent.move (unstamping_of requested nofun) rfl ?_ (.inl rfl) rfl rfl rfl
    intro placed same
    cases same
    refine ⟨follows.answer, fun event member => ?_⟩
    rcases List.mem_append.mp member with earlier | last
    · exact served event earlier
    · obtain rfl := List.mem_singleton.mp last
      exact ⟨service, rfl⟩
  · cases stepped

/-- What a request that has its list puts in the cell is the list of its call. -/
theorem Consistent.conclude (consistent : Consistent formats worker)
    (stepped : worker.step formats (.conclude id) = some next) : Consistent formats next := by
  simp only [Worker.step] at stepped
  split at stepped
  · rename_i network trace peers requested
    obtain ⟨follows, served⟩ := consistent.sound requested
    split at stepped
    · rename_i free
      cases stepped
      refine consistent.place rfl ?_ ?_ (fun unstamping => ?_) consistent.stamped consistent.filled
      · intro placed same
        cases same
        exact ⟨rfl, follows, served⟩
      · intro other found different sound
        exact sound.beside (by rw [free]; nofun) (.inl rfl)
      · exact absurd ⟨trace, rfl⟩ (unstamping id _ (Function.update_self ..))
    · cases stepped
      exact consistent.move (unstamping_of requested nofun) rfl nofun (.inl rfl) rfl rfl rfl
  · rename_i requested
    cases stepped
    exact consistent.move (unstamping_of requested nofun) rfl nofun (.inl rfl) rfl rfl rfl
  · cases stepped

theorem Consistent.stamp {now : Nat} (consistent : Consistent formats worker)
    (stepped : worker.step formats (.stamp id now) = some next) : Consistent formats next := by
  simp only [Worker.step] at stepped
  split at stepped
  · rename_i network trace requested
    cases stepped
    obtain ⟨held, computed⟩ := consistent.sound requested
    refine consistent.place rfl nofun ?_ (fun _ => rfl) ?_ ?_
    · intro other found different sound
      refine sound.beside ?_ (.inr ⟨_, rfl⟩)
      rw [held]
      exact fun same => different (Option.some.inj same).symm
    · rintro _ ⟨⟩
      rfl
    · intro fill member
      rcases List.mem_cons.mp member with same | earlier
      · subst same
        exact computed
      · exact consistent.filled fill earlier
  · cases stepped

theorem Consistent.read (consistent : Consistent formats worker)
    (stepped : worker.step formats (.read id) = some next) : Consistent formats next := by
  simp only [Worker.step] at stepped
  split at stepped
  · rename_i requested
    split at stepped
    · rename_i held
      cases stepped
      exact consistent.move (unstamping_of requested nofun) rfl nofun (.inr held) rfl rfl rfl
    · cases stepped
  · cases stepped

/-- Every action keeps a worker consistent. -/
theorem Consistent.step {action : Action} (consistent : Consistent formats worker)
    (stepped : worker.step formats action = some next) : Consistent formats next := by
  cases action with
  | evolve store =>
    cases stepped
    exact ⟨fun present => (consistent.sound present).same rfl rfl rfl, consistent.synced,
      consistent.stamped, consistent.filled⟩
  | arrive other query =>
    simp only [Worker.step] at stepped
    split at stepped
    · rename_i absent
      cases stepped
      refine consistent.move (by rw [absent]; nofun) rfl ?_ (.inl rfl) rfl rfl rfl
      intro placed same
      cases same
      trivial
    · cases stepped
  | acquire other => exact consistent.acquire stepped
  | check other now => exact consistent.check stepped
  | measure other => exact consistent.measure stepped
  | command other service => exact consistent.command stepped
  | conclude other => exact consistent.conclude stepped
  | stamp other now => exact consistent.stamp stepped
  | read other => exact consistent.read stepped

/-- An answer from the cache is for the network of the request that filled it last. -/
def OwnCache (worker : Worker F64) : Action → Prop
  | .read id => ∀ request ∈ worker.requests id, ∀ fill ∈ worker.fills.head?,
      fill.network = request.network
  | _ => True

instance (worker : Worker F64) (action : Action) : Decidable (OwnCache worker action) := by
  unfold OwnCache
  split <;> infer_instance

theorem Transparent.grow {fills : List (Fill F64)} {response : Response F64}
    (transparent : Transparent formats fills response) (fresh : Fill F64) :
    Transparent formats (fresh :: fills) response := by
  unfold Transparent at *
  split
  · rename_i trace source
    rw [source] at transparent
    exact transparent
  · rename_i now seen source
    rw [source] at transparent
    obtain ⟨fill, timely, rest⟩ := transparent
    refine ⟨fill, ?_, rest⟩
    rcases timely with recent | ⟨member, young⟩
    · have met : seen < fills.length := by
        by_contra late
        simp [Nat.sub_eq_zero_of_le (Nat.le_of_not_lt late)] at recent
      left
      rw [List.length_cons, Nat.succ_sub met.le, List.take_succ_cons]
      exact List.mem_cons_of_mem _ recent
    · exact .inr ⟨List.mem_cons_of_mem _ member, young⟩

/-- What a step adds to the responses, and to the fills. -/
theorem Consistent.responds {action : Action} (consistent : Consistent formats worker)
    (own : OwnCache worker action) (stepped : worker.step formats action = some next) :
    (next.fills = worker.fills ∨ ∃ fresh, next.fills = fresh :: worker.fills) ∧
      (next.responses = worker.responses ∨ ∃ response,
        next.responses = response :: worker.responses ∧ Transparent formats next.fills response) := by
  cases action with
  | evolve store =>
    cases stepped
    exact ⟨.inl rfl, .inl rfl⟩
  | arrive id query =>
    simp only [Worker.step] at stepped
    split at stepped <;> cases stepped
    exact ⟨.inl rfl, .inl rfl⟩
  | acquire id =>
    simp only [Worker.step] at stepped
    split at stepped <;> cases stepped <;> exact ⟨.inl rfl, .inl rfl⟩
  | check id now =>
    simp only [Worker.step] at stepped
    split at stepped
    · split at stepped <;> cases stepped
      exact ⟨.inl rfl, .inl rfl⟩
    · cases stepped
  | measure id =>
    simp only [Worker.step] at stepped
    split at stepped <;> cases stepped
    exact ⟨.inl rfl, .inl rfl⟩
  | command id service =>
    simp only [Worker.step] at stepped
    split at stepped <;> cases stepped
    exact ⟨.inl rfl, .inl rfl⟩
  | conclude id =>
    simp only [Worker.step] at stepped
    split at stepped
    · rename_i requested
      split at stepped
      · cases stepped
        exact ⟨.inl rfl, .inl rfl⟩
      · cases stepped
        obtain ⟨follows, served⟩ := consistent.sound requested
        exact ⟨.inl rfl, .inr ⟨_, rfl, follows, served⟩⟩
    · cases stepped
      exact ⟨.inl rfl, .inl rfl⟩
    · cases stepped
  | stamp id now =>
    simp only [Worker.step] at stepped
    split at stepped
    · rename_i requested
      cases stepped
      exact ⟨.inr ⟨_, rfl⟩, .inr ⟨_, rfl, (consistent.sound requested).2⟩⟩
    · cases stepped
  | read id =>
    simp only [Worker.step] at stepped
    split at stepped
    · rename_i network now seen requested
      split at stepped
      · rename_i held
        cases stepped
        obtain ⟨_, fill, latest, timely⟩ := consistent.sound requested
        have same : fill.network = network := own _ requested fill latest
        obtain ⟨rest, fills⟩ := List.head?_eq_some_iff.mp latest
        have synced := consistent.synced_of_holder requested (unstamping_of requested nofun _ requested) held
        rw [Synced, fills] at synced
        have computed := consistent.filled fill (fills ▸ List.mem_cons_self)
        rw [same, ← show worker.data = fill.peers from synced] at computed
        exact ⟨.inl rfl, .inr ⟨_, rfl, fill, timely, same, computed⟩⟩
      · cases stepped
    · cases stepped

theorem reached_consistent {meets : Worker F64 → Action → Prop}
    (reached : Reached formats meets worker) : Consistent formats worker := by
  induction reached with
  | started => exact consistent_started _
  | step _ _ stepped inductionHypothesis => exact inductionHypothesis.step stepped

/-- In every run in which cached answers are for the network last put in the
cache, every response is a timely list of the network that was asked for. -/
theorem reached_transparent (reached : Reached formats OwnCache worker) :
    ∀ response ∈ worker.responses, Transparent formats worker.fills response := by
  induction reached with
  | started =>
    intro response member
    cases member
  | step earlier own stepped inductionHypothesis =>
    rename_i before action after
    obtain ⟨fills, responses⟩ := (reached_consistent earlier).responds own stepped
    have kept : ∀ response ∈ before.responses, Transparent formats after.fills response := by
      intro response member
      rcases fills with same | ⟨fresh, same⟩
      · rw [same]
        exact inductionHypothesis response member
      · rw [same]
        exact (inductionHypothesis response member).grow fresh
    intro response member
    rcases responses with same | ⟨latest, same, transparent⟩
    · exact kept response (same ▸ member)
    · rw [same] at member
      rcases List.mem_cons.mp member with newest | older
      · subst newest
        exact transparent
      · exact kept response older

variable (formats) in
/-- Actions one after the other, each of which has to meet a condition. -/
def Worker.perform (meets : Worker F64 → Action → Prop) [∀ worker action, Decidable (meets worker action)] :
    List Action → Worker F64 → Option (Worker F64)
  | [], worker => some worker
  | action :: rest, worker =>
    if meets worker action then (worker.step formats action).bind (perform meets rest) else none

theorem Reached.perform {meets : Worker F64 → Action → Prop}
    [∀ worker action, Decidable (meets worker action)] {actions : List Action} {worker last : Worker F64}
    (reached : Reached formats meets worker)
    (performed : worker.perform formats meets actions = some last) : Reached formats meets last := by
  induction actions generalizing worker with
  | nil =>
    cases performed
    exact reached
  | cons action rest inductionHypothesis =>
    simp only [Worker.perform] at performed
    split at performed
    · rename_i met
      obtain ⟨next, stepped, others⟩ := Option.bind_eq_some_iff.mp performed
      exact inductionHypothesis (reached.step met stepped) others
    · cases performed

/-- One peer of the main network is online. -/
def sampleStore : Store :=
  ((Store.empty 0).put "network.peer.Qm.mirana" ⟨.text "0", none⟩).put "peer.online.Qm" ⟨.text "0.1", none⟩

/-- A request that finds the cache empty and lists the main network. -/
def listMirana : List Action :=
  [.arrive 0 "mirana", .acquire 0, .check 0 100000000000] ++ List.replicate 10 (.command 0 (.answered .sorted)) ++
    [.conclude 0, .stamp 0 101000000000]

/-- Another request is answered from the cache nine seconds later. -/
def readCached (query : String) : List Action :=
  [.arrive 1 query, .acquire 1, .check 1 110000000000, .measure 1, .acquire 1, .read 1]

/-- The main network was put in the cache, and the test network answered from it. -/
def crossed (worker : Worker Unit) : Bool :=
  match worker.responses, worker.fills with
  | ⟨.pudge, peers, .cached _ _⟩ :: _, [⟨.mirana, _, _, _⟩] => peers.map Peer.version = ["0.1"]
  | _, _ => false

/-- Then a request for the test network gets the list of the main network, which
is not what its own listing would be. -/
theorem cache_crosses_networks : ∃ worker : Worker Unit, ∃ response ∈ worker.responses,
    Reached sampleFormats (fun _ _ => True) worker ∧ response.network = .pudge ∧
      ¬ Transparent sampleFormats worker.fills response ∧
      response.peers.map Peer.version = ["0.1"] ∧
      (callGetPeers sampleFormats .pudge).evaluate (snapshot .sorted sampleStore) = some (.ok []) := by
  have performed : (Worker.perform sampleFormats (fun _ _ => True)
      (listMirana ++ readCached "pudge") (.started sampleStore)).any crossed := by
    decide +kernel
  obtain ⟨worker, same, shape⟩ := (Option.any_eq_true _ _).mp performed
  have reached : Reached sampleFormats (fun _ _ => True) worker := Reached.started.perform same
  have pudge : (callGetPeers sampleFormats .pudge).evaluate (snapshot .sorted sampleStore) =
      some (.ok []) := by
    decide +kernel
  unfold crossed at shape
  split at shape
  · rename_i peers now seen older trace filled stamp responses fills
    refine ⟨worker, _, responses ▸ List.mem_cons_self, reached, rfl, ?_, of_decide_eq_true shape, pudge⟩
    intro given
    obtain ⟨fill, timely, network, _⟩ := given
    have member : fill ∈ worker.fills := by
      rcases timely with recent | ⟨found, _⟩
      · exact List.mem_of_mem_take recent
      · exact found
    rw [fills] at member
    obtain rfl := List.mem_singleton.mp member
    cases network
  · cases shape

theorem reached_transparent_mirana : ∃ worker : Worker Unit,
    Reached sampleFormats OwnCache worker ∧ worker.responses.length = 2 ∧
      ∀ response ∈ worker.responses, Transparent sampleFormats worker.fills response := by
  have performed : (Worker.perform sampleFormats OwnCache
      (listMirana ++ readCached "main") (.started sampleStore)).any fun worker =>
        decide (worker.responses.length = 2) := by
    decide +kernel
  obtain ⟨worker, same, both⟩ := (Option.any_eq_true _ _).mp performed
  have reached : Reached sampleFormats OwnCache worker := Reached.started.perform same
  exact ⟨worker, reached, of_decide_eq_true both, reached_transparent reached⟩

end CkbDiscovery.Exposed
