import CkbDiscovery.Effect.Assured
import CkbDiscovery.Marci.Footprint
import CkbDiscovery.Redis.Typing

/-! Marci on a Redis server that may refuse commands. Witnesses and addresses
are sets, all other records are texts, and no command ever mistakes one for the
other: nothing is refused as long as the deadlines are in range. -/

namespace CkbDiscovery.Marci

open Effect Redis
open Relation (ReflTransGen)

/-- The server refuses a command that cannot be executed. -/
inductive Serves : State → (question : MarciCall) → question.Reply → State → Prop where
  | answered (answers : Answers state question reply after) : Serves state question reply after
  | refused (failed : execute order state.redis command = .error error) :
      Serves state (.redis command) (.error error) state

def serving : World State MarciCall.Reply := ⟨Serves, StateDrifts⟩

def setFormats : List KeyFormat := [.reachablePeer, .peerIp]

def setKeys : Set String := {key | ∃ format ∈ setFormats, ∃ peerId, key = format.key peerId}

@[simp] theorem mem_setKeys {format : KeyFormat} {peerId : String} :
    format.key peerId ∈ setKeys ↔ format ∈ setFormats := by
  constructor
  · rintro ⟨other, member, id, same⟩
    rwa [(KeyFormat.key_eq_key.mp same).1]
  · intro member
    exact ⟨format, member, peerId, rfl⟩

/-- The timeouts are positive, and deadlines set at this time are in range. -/
structure Config.Timely (config : Config) (now : Nat) : Prop where
  online : 0 < config.ckbNodeDefaultTimeout.toNat
  unknown : 0 < config.ckbNodeUnknownDefaultTimeout.toNat
  onlineDeadline : now + 1000 * config.ckbNodeDefaultTimeout.toNat < 2 ^ 63
  unknownDeadline : now + 1000 * config.ckbNodeUnknownDefaultTimeout.toNat < 2 ^ 63

/-- Calls that a server with typed keys answers at any time in range. -/
def MarciCall.Fits (config : Config) : MarciCall → Prop
  | .redis command => command.Typed setKeys ∧ ∀ now, config.Timely now → command.Timely now
  | _ => True

/-- The broker has taken what was published. -/
def MarciCall.Delivered : (question : MarciCall) → question.Reply → Prop
  | .publish _ _, reply => reply = .ok ()
  | _, _ => True

variable {config : Config} {serde : Serde} {peerId : String}

theorem comes_redis {command : Command} {reply : MarciCall.Reply (.redis command)}
    (comes : Comes world (.redis command) reply) : ∃ value, reply = .ok value := by
  obtain ⟨before, after, answered⟩ := comes
  cases answered with
  | redis executed => exact ⟨_, rfl⟩

/-- Without server errors and with all its messages delivered the handler goes on. -/
def Safe (config : Config) (handler : Handler α) : Prop :=
  handler.Assured (MarciCall.Fits config) (Comes world) MarciCall.Delivered

theorem Safe.andThen {handler : Handler α} {next : α → Handler β} (first : Safe config handler)
    (rest : ∀ value, Safe config (next value)) : Safe config (handler >>= next) :=
  Program.Assured.andThen first rest

theorem safe_ask {question : MarciCall} (fits : question.Fits config)
    (free : ∀ topic payload, question ≠ .publish topic payload) : Safe config (ask question) := by
  refine Program.Assured.perform fits fun reply _ => ?_
  cases question with
  | publish topic payload => exact absurd rfl (free topic payload)
  | _ => trivial

theorem safe_send {command : Command} (fits : (MarciCall.redis command).Fits config) :
    Safe config (Client.send command : Handler _) :=
  safe_ask fits nofun

theorem safe_orReturn {command : Command} (fits : (MarciCall.redis command).Fits config) :
    Safe config (orReturn (Client.send command) : Handler _) := by
  refine ⟨fits, fun reply comes => .inl ⟨trivial, ?_⟩⟩
  obtain ⟨value, rfl⟩ := comes_redis comes
  trivial

theorem Safe.unwrapOr {handler : Handler (Except ε α)} {default : α} (safe : Safe config handler) :
    Safe config (unwrapOr default handler) :=
  safe.andThen fun reply => by cases reply <;> trivial

theorem safe_getString {key : String} (fits : (MarciCall.redis (.get key)).Fits config) :
    Safe config (Client.getString key : Handler _) :=
  (safe_send fits).andThen fun reply => by rcases reply with _ | _ | _ <;> trivial

/-- A message that is not delivered is an early return. -/
theorem safe_publish (topic payload : String) :
    Safe config (orReturn (ask (.publish topic payload))) := by
  refine ⟨trivial, fun reply _ => ?_⟩
  cases reply with
  | ok value => exact .inl ⟨rfl, trivial⟩
  | error error => exact .inr ⟨nofun, rfl⟩

theorem fits_set {format : KeyFormat} {value : String} (plain : format ∉ setFormats) :
    (MarciCall.redis (.set (format.key peerId) value)).Fits config :=
  ⟨fun member => plain (mem_setKeys.mp member), fun _ _ => trivial⟩

theorem fits_get {format : KeyFormat} (plain : format ∉ setFormats) :
    (MarciCall.redis (.get (format.key peerId))).Fits config :=
  ⟨fun member => plain (mem_setKeys.mp member), fun _ _ => trivial⟩

theorem fits_setEx {format : KeyFormat} {value : String} (plain : format ∉ setFormats) :
    (MarciCall.redis (.setEx (format.key peerId) value
      config.ckbNodeDefaultTimeout.toNat)).Fits config :=
  ⟨fun member => plain (mem_setKeys.mp member),
    fun _ timely => ⟨timely.online, timely.onlineDeadline⟩⟩

theorem fits_del (key : String) : (MarciCall.redis (.del key)).Fits config :=
  ⟨trivial, fun _ _ => trivial⟩

theorem safe_lookupIpinfo (ip : String) : Safe config (lookupIpinfo ip) := by
  refine ⟨trivial, fun cached _ => .inl ⟨trivial, ?_⟩⟩
  cases cached with
  | some details => trivial
  | none =>
    refine ⟨trivial, fun found _ => .inl ⟨trivial, ?_⟩⟩
    cases found with
    | none => trivial
    | some details => exact ⟨trivial, fun _ _ => .inl ⟨trivial, trivial⟩⟩

theorem safe_queryByReachable (addresses : List EndpointInfo) :
    Safe config (queryByReachable addresses) := by
  induction addresses with
  | nil => trivial
  | cons addr rest inductionHypothesis =>
    refine (safe_lookupIpinfo _).andThen fun found => ?_
    cases found with
    | none => exact inductionHypothesis
    | some details => trivial

theorem safe_setIpDetails (peerId : String) (ip : IpDetails) :
    Safe config (setIpDetails peerId ip) :=
  (safe_orReturn (fits_set (by decide))).andThen fun _ =>
  (safe_orReturn (fits_set (by decide))).andThen fun _ =>
  (safe_orReturn (fits_set (by decide))).andThen fun _ =>
  safe_orReturn (fits_set (by decide))

theorem safe_systemTime : Safe config (ask .systemTime) :=
  safe_ask trivial nofun

theorem safe_setLastSeen (peerId : String) : Safe config (setLastSeen peerId) :=
  safe_systemTime.andThen fun _ => safe_orReturn (fits_set (by decide))

theorem safe_setLastUpdate : Safe config setLastUpdate := by
  refine safe_systemTime.andThen fun now => ?_
  have fits : (MarciCall.redis (.set serviceLastUpdateKey (toString now.toNat))).Fits config := by
    refine ⟨?_, fun _ _ => trivial⟩
    rintro ⟨format, _, peerId, same⟩
    exact key_ne_serviceLastUpdate format peerId same.symm
  exact (safe_send fits).unwrapOr

theorem safe_expireOnline (small : config.ckbNodeDefaultTimeout.toNat < 2 ^ 63) (onlineKey : String) :
    Safe config (expireOnline config onlineKey) := by
  unfold expireOnline tryIntoI64
  rw [if_pos small]
  have fits : (MarciCall.redis (.expire onlineKey config.ckbNodeDefaultTimeout.toNat)).Fits config :=
    ⟨trivial, fun _ timely => timely.onlineDeadline⟩
  exact (safe_orReturn fits).andThen fun _ => trivial

theorem safe_markOnline (small : config.ckbNodeDefaultTimeout.toNat < 2 ^ 63) (peer : PeerInfo) :
    Safe config (markOnline config peer) := by
  refine (safe_getString (fits_get (by decide))).andThen fun reply => ?_
  cases reply with
  | ok version => exact safe_expireOnline small _
  | error error =>
    dsimp only
    split
    · exact safe_orReturn (fits_setEx (by decide))
    · exact safe_orReturn (fits_setEx (by decide))

theorem safe_locateOnline (peer : PeerInfo) : Safe config (locateOnline config serde peer) := by
  unfold locateOnline
  split
  · trivial
  · refine (safe_orReturn (fits_setEx (by decide))).andThen fun _ => ?_
    refine (safe_lookupIpinfo _).andThen fun found => ?_
    cases found with
    | none => trivial
    | some ip => exact safe_setIpDetails _ ip

theorem safe_settleOnline (peer : PeerInfo) : Safe config (settleOnline config peer) :=
  (safe_orReturn (fits_set (by decide))).andThen fun _ =>
  (safe_setLastSeen _).andThen fun _ =>
  (safe_orReturn (fits_del _)).andThen fun _ => trivial

theorem safe_verifyWitnesses (peerId : String) : Safe config (verifyWitnesses config peerId) := by
  have counts : (MarciCall.redis (.scard (KeyFormat.reachablePeer.key peerId))).Fits config :=
    ⟨mem_setKeys.mpr (by decide), fun _ _ => trivial⟩
  refine (safe_send counts).unwrapOr.andThen fun witnesses => ?_
  split
  · have marks : (MarciCall.redis (.setEx (KeyFormat.unknownPeer.key peerId) "unknown"
        config.ckbNodeUnknownDefaultTimeout.toNat)).Fits config :=
      ⟨fun member => absurd (mem_setKeys.mp member) (by decide),
        fun _ timely => ⟨timely.unknown, timely.unknownDeadline⟩⟩
    exact (safe_orReturn marks).andThen fun _ =>
      (safe_orReturn (fits_del _)).andThen fun _ => trivial
  · trivial

theorem safe_handleUnknown (small : config.ckbNodeDefaultTimeout.toNat < 2 ^ 63) (peer : NodeMetaInfo) :
    Safe config (handleUnknown config peer) := by
  refine Safe.andThen ?_ fun _ => safe_setLastSeen _
  refine (safe_getString (fits_get (by decide))).andThen fun reply => ?_
  cases reply with
  | ok version => exact safe_expireOnline small _
  | error error => exact safe_verifyWitnesses _

theorem safe_recordReachable (peer : ReachableInfo) : Safe config (recordReachable serde peer) := by
  have adds : ∀ {format : KeyFormat} (member : String), format ∈ setFormats →
      (MarciCall.redis (.sadd (format.key peer.peer.peerId) member)).Fits config :=
    fun _ listed => ⟨mem_setKeys.mpr listed, fun _ _ => trivial⟩
  refine (safe_orReturn (adds _ (by decide))).andThen fun _ => ?_
  refine (safe_orReturn (fits_set (by simp [setFormats]))).andThen fun _ => ?_
  refine Safe.andThen (Program.Assured.forEach fun ip _ => ?_) fun _ => ?_
  · exact Safe.andThen (safe_orReturn (adds _ (by decide))) fun _ => trivial
  · exact safe_orReturn (fits_set (by decide))

theorem safe_locateReachable (peer : ReachableInfo) : Safe config (locateReachable peer) := by
  refine (safe_getString (fits_get (by decide))).unwrapOr.andThen fun country => ?_
  split
  · refine (safe_queryByReachable _).andThen fun found => ?_
    cases found with
    | none => trivial
    | some ip => exact safe_setIpDetails _ ip
  · trivial

theorem safe_requestDial (peerId : String) : Safe config (requestDial serde peerId) := by
  refine Safe.andThen ?_ fun _ => safe_publish _ _
  have lists : (MarciCall.redis (.smembers (KeyFormat.peerIp.key peerId))).Fits config :=
    ⟨mem_setKeys.mpr (by decide), fun _ _ => trivial⟩
  refine (safe_send lists).unwrapOr.andThen fun rawInfo => ?_
  exact (safe_getString (fits_get (by decide))).unwrapOr.andThen fun _ => trivial

theorem safe_handle (small : config.ckbNodeDefaultTimeout.toNat < 2 ^ 63) (message : Message) :
    Safe config (handle config serde message) := by
  cases message with
  | online peer =>
    exact (safe_markOnline small peer).andThen fun _ =>
      (safe_locateOnline peer).andThen fun _ => safe_settleOnline peer
  | unknown peer => exact safe_handleUnknown small peer
  | reachable peer =>
    exact (safe_recordReachable peer).andThen fun _ => (safe_setLastSeen _).andThen fun _ =>
      (safe_locateReachable peer).andThen fun _ => safe_setLastUpdate
  | tick =>
    have scans : (MarciCall.redis (.keys "peer.reachable.*")).Fits config :=
      ⟨trivial, fun _ _ => trivial⟩
    refine (safe_orReturn scans).andThen fun keys => ?_
    exact Safe.andThen (Program.Assured.forEach fun peerId _ => safe_requestDial peerId)
      fun _ => safe_setLastUpdate

theorem Config.Timely.earlier {now later : Nat} (timely : config.Timely later) (passed : now ≤ later) :
    config.Timely now where
  online := timely.online
  unknown := timely.unknown
  onlineDeadline := by have := timely.onlineDeadline; omega
  unknownDeadline := by have := timely.unknownDeadline; omega

/-- On a store with typed keys the server is one that never refuses. -/
theorem serving_narrows (config : Config) :
    Narrows serving world (MarciCall.Fits config) (fun state => state.redis.Typed setKeys)
      fun state => config.Timely state.redis.now where
  drifts _ _ := id
  answers typed timely fits served := by
    cases served with
    | answered answers => exact answers
    | refused failed =>
      obtain ⟨reply, after, executed⟩ := execute_progress _ typed fits.1 (fits.2 _ timely)
      cases executed.symm.trans failed
  drifted typed drifts := typed.fades (drift_fades (.single drifts))
  answered typed fits answers := by
    cases answers with
    | redis executed => exact execute_typed typed fits.1 executed
    | _ => exact typed
  driftLimit drifts timely := timely.earlier (drift_fades (.single drifts)).clock
  answerLimit served timely := by
    cases served with
    | refused failed => exact timely
    | answered answers =>
      cases answers with
      | redis executed => exact timely.earlier (execute_exact executed).1.ge
      | _ => exact timely

/-- Keys keep their types over any run. -/
theorem run_typed (small : config.ckbNodeDefaultTimeout.toNat < 2 ^ 63) {start after : State}
    {turns : List MarciTurn} (run : MarciRun config serde start turns after)
    (typed : start.redis.Typed setKeys) : after.redis.Typed setKeys := by
  have narrows : Narrows world world (MarciCall.Fits config) (fun state => state.redis.Typed setKeys)
      fun _ => True :=
    { drifts := fun _ _ drifts => drifts
      answers := fun _ _ _ answers => answers
      drifted := (serving_narrows config).drifted
      answered := (serving_narrows config).answered
      driftLimit := fun _ _ => trivial
      answerLimit := fun _ _ => trivial }
  exact (run.narrowed narrows (fun message => (safe_handle small message).respects) typed trivial).2

/-- A state in which no handler has to give up. -/
structure Fit (config : Config) (state : State) : Prop where
  typed : state.redis.Typed setKeys
  timely : config.Timely state.redis.now

theorem Fit.small {state : State} (fit : Fit config state) : config.ckbNodeDefaultTimeout.toNat < 2 ^ 63 := by
  have := fit.timely.onlineDeadline
  omega

theorem Fit.answerable {state : State} (fit : Fit config state) (question : MarciCall)
    (fits : question.Fits config) :
    ∃ reply after, world.answers state question reply after ∧ question.Delivered reply ∧ Fit config after := by
  cases question with
  | redis command =>
    obtain ⟨value, store, executed⟩ :=
      execute_progress .sorted fit.typed fits.1 (fits.2 _ fit.timely)
    refine ⟨.ok value, { state with redis := store }, .redis executed, trivial,
      execute_typed fit.typed fits.1 executed, ?_⟩
    exact fit.timely.earlier (execute_exact executed).1.le
  | systemTime => exact ⟨0, state, .systemTime, trivial, fit⟩
  | cachedIpinfo ip => exact ⟨_, state, .cachedIpinfo, trivial, fit⟩
  | cacheIpinfo ip details => exact ⟨(), _, .cacheIpinfo, trivial, fit.typed, fit.timely⟩
  | lookupIpinfo ip => exact ⟨none, state, .lookupIpinfo, trivial, fit⟩
  | publish topic payload => exact ⟨.ok (), state, .publish, rfl, fit⟩

variable {start before : State} {turns : List MarciTurn} {message : Message}

/-- As long as the deadlines are in range, a server that may refuse commands
refuses none of Marci's: its runs are those of a server that never does, and a
turn ends early exactly if the broker does not take a message. -/
theorem turns_served (typed : start.redis.Typed setKeys)
    (run : Run serving (handle config serde) start turns before)
    (ended : Ended serving before (handle config serde message) states trace outcome)
    (timely : ∀ state ∈ states, config.Timely state.redis.now) :
    MarciRun config serde start turns before ∧
      Ended world before (handle config serde message) states trace outcome ∧
      (outcome.isSome ↔ ∀ event ∈ trace, event.question.Delivered event.reply) := by
  have starting := timely before ended.visits_start
  have small : config.ckbNodeDefaultTimeout.toNat < 2 ^ 63 := by
    have := starting.onlineDeadline
    omega
  have safe (message : Message) : Safe config (handle config serde message) := safe_handle small message
  obtain ⟨narrowly, typedBefore⟩ :=
    run.narrowed (serving_narrows config) (fun message => (safe message).respects) typed starting
  have endedSo := ended.narrowed (serving_narrows config) (safe message).respects typedBefore timely
  exact ⟨narrowly, endedSo, endedSo.finishes (safe message)⟩

theorem sampleConfig_timely {now : Nat} (early : now ≤ 200000) : sampleConfig.Timely now := by
  have online : sampleConfig.ckbNodeDefaultTimeout.toNat = 100 := rfl
  have unknown : sampleConfig.ckbNodeUnknownDefaultTimeout.toNat = 50 := rfl
  constructor <;> omega

/-- A broker that takes no message. -/
def deafBroker : Responder State MarciCall.Reply
  | state, .publish _ _ => some (.error (), state)
  | state, question => respond sampleSurroundings state question

theorem deafBroker_faithful : Faithful serving deafBroker := by
  intro state question reply replied responded
  cases question with
  | publish topic payload =>
    cases responded
    exact .answered .publish
  | _ => exact .answered (respond_faithful sampleSurroundings _ _ _ _ responded)

def reportedScript : List (Nat × Message) :=
  [(0, .reachable ⟨⟨"Qm", [], .mirana⟩, ⟨"Qr", [], .mirana⟩⟩)]

/-- A tick that has a peer to ask for gives up on the broker, and on nothing else. -/
theorem turns_served_deaf : ∃ turns before states trace,
    Run serving (handle sampleConfig .unary) (.initial 0) turns before ∧
      Ended serving before (handle sampleConfig .unary .tick) states trace none ∧
      MarciRun sampleConfig .unary (.initial 0) turns before ∧
      ¬ ∀ event ∈ trace, event.question.Delivered event.reply := by
  have checked : (play sampleConfig .unary sampleSurroundings reportedScript (.initial 0)).any
      fun result => ((handle sampleConfig .unary .tick).rehearse deafBroker State.wait [5] result.2).any
        fun turn => decide (turn.2.2 = none ∧ ∀ state ∈ turn.1, state.redis.now ≤ 200000) := by
    decide +kernel
  obtain ⟨⟨turns, before⟩, played, rehearsing⟩ := (Option.any_eq_true _ _).mp checked
  obtain ⟨⟨states, trace, outcome⟩, rehearsed, holds⟩ := (Option.any_eq_true _ _).mp rehearsing
  obtain ⟨rfl, early⟩ := of_decide_eq_true holds
  have run : Run serving (handle sampleConfig .unary) (.initial 0) turns before :=
    (play_run played).mono world _ id fun answers => .answered answers
  have ended : Ended serving before (handle sampleConfig .unary .tick) states trace none :=
    .of_rehearse deafBroker_faithful
      (fun pause state => .redis (.elapse state.redis pause)) rehearsed
  have timely : ∀ state ∈ states, sampleConfig.Timely state.redis.now :=
    fun state member => sampleConfig_timely (early state member)
  obtain ⟨narrowly, _, undelivered⟩ := turns_served (typed_empty 0) run ended timely
  exact ⟨turns, before, states, trace, run, ended, narrowly, fun all => by simpa using undelivered.mpr all⟩

end CkbDiscovery.Marci
