import CkbDiscovery.Effect.Replay
import CkbDiscovery.Marci.Handlers

/-! Marci's loop over a Redis server that answers every command, and what each
piece of a handler does to the store. Keys may expire between any two commands. -/

namespace CkbDiscovery.Marci

open Effect Redis
open Relation (ReflTransGen)

structure State where
  redis : Store
  ipinfoCache : Finmap fun _ : String => IpDetails

def State.initial (now : Nat) : State := ⟨.empty now, ∅⟩

/-- Wall clock readings, ipinfo replies and broker replies are arbitrary. -/
inductive Answers : State → (question : MarciCall) → question.Reply → State → Prop where
  | redis (executed : execute order state.redis command = .ok (value, store)) :
      Answers state (.redis command) (.ok value) { state with redis := store }
  | systemTime : Answers state .systemTime reading state
  | cachedIpinfo : Answers state (.cachedIpinfo ip) (state.ipinfoCache.lookup ip) state
  | cacheIpinfo : Answers state (.cacheIpinfo ip details) ()
      { state with ipinfoCache := state.ipinfoCache.insert ip details }
  | lookupIpinfo : Answers state (.lookupIpinfo ip) found state
  | publish : Answers state (.publish topic payload) delivered state

inductive StateDrifts : State → State → Prop where
  | redis (drifts : state.redis.Drifts store) : StateDrifts state { state with redis := store }

def world : World State MarciCall.Reply := ⟨Answers, StateDrifts⟩

abbrev HandlerTrace := List (Event State MarciCall.Reply)

abbrev MarciTurn := Turn State MarciCall.Reply Message

abbrev HandlerCompletes (before : State) (handler : Handler α) (trace : HandlerTrace)
    (after : State) (value : α) : Prop :=
  Completes world before handler trace after value

abbrev MarciRun (config : Config) (serde : Serde) : State → List MarciTurn → State → Prop :=
  Run world (handle config serde)

/-- What a replay takes from outside the store. -/
structure Surroundings where
  order : Enumeration
  clock : UInt64
  ipinfo : String → Option IpDetails

def respond (surroundings : Surroundings) : Responder State MarciCall.Reply
  | state, .redis command =>
    match execute surroundings.order state.redis command with
    | .ok (value, store) => some (.ok value, { state with redis := store })
    | .error _ => none
  | state, .systemTime => some (surroundings.clock, state)
  | state, .cachedIpinfo ip => some (state.ipinfoCache.lookup ip, state)
  | state, .cacheIpinfo ip details =>
    some ((), { state with ipinfoCache := state.ipinfoCache.insert ip details })
  | state, .lookupIpinfo ip => some (surroundings.ipinfo ip, state)
  | state, .publish _ _ => some (.ok (), state)

theorem respond_faithful (surroundings : Surroundings) :
    Faithful world (respond surroundings) := by
  intro state question reply replied responded
  cases question with
  | redis command =>
    simp only [respond] at responded
    split at responded
    · rename_i executed
      cases responded
      exact .redis executed
    · cases responded
  | systemTime => cases responded; exact .systemTime
  | cachedIpinfo ip => cases responded; exact .cachedIpinfo
  | cacheIpinfo ip details => cases responded; exact .cacheIpinfo
  | lookupIpinfo ip => cases responded; exact .lookupIpinfo
  | publish topic payload => cases responded; exact .publish

def State.wait (duration : Nat) (state : State) : State :=
  { state with redis := { state.redis with now := state.redis.now + duration } }

theorem wait_drifts (duration : Nat) (state : State) :
    ReflTransGen world.drifts state (state.wait duration) :=
  .single (.redis (.elapse state.redis duration))

/-- Pauses in milliseconds and messages, replayed from a state. -/
def play (config : Config) (serde : Serde) (surroundings : Surroundings)
    (script : List (Nat × Message)) (state : State) : Option (List MarciTurn × State) :=
  replayLoop (respond surroundings) State.wait (handle config serde) script state

theorem play_run {surroundings : Surroundings} {config : Config} {serde : Serde}
    {script : List (Nat × Message)}
    (played : play config serde surroundings script start = some (turns, after)) :
    MarciRun config serde start turns after :=
  Run.of_replay (respond_faithful surroundings) wait_drifts played

/-- A replayed script is a run, and what can be checked of its end holds there. -/
theorem play_reaches {surroundings : Surroundings} {config : Config} {serde : Serde}
    {script : List (Nat × Message)} {start : State} {property : List MarciTurn × State → Prop}
    [DecidablePred property]
    (played : (play config serde surroundings script start).any fun result =>
      decide (property result)) :
    ∃ turns after, MarciRun config serde start turns after ∧ property (turns, after) := by
  obtain ⟨⟨turns, after⟩, same, holds⟩ := (Option.any_eq_true _ _).mp played
  exact ⟨turns, after, play_run same, of_decide_eq_true holds⟩

/-- A replayed script and one more replayed message: a run and a turn after it. -/
theorem play_turn (surroundings : Surroundings) {config : Config} {serde : Serde}
    (script : List (Nat × Message)) {start : State} {message : Message}
    {property : State → HandlerTrace → State → Prop}
    [∀ before trace after, Decidable (property before trace after)]
    (played : (play config serde surroundings script start).any fun result =>
      ((handle config serde message).replay (respond surroundings) result.2).any fun turn =>
        decide (property result.2 turn.1 turn.2.1)) :
    ∃ turns before trace after, MarciRun config serde start turns before ∧
      HandlerCompletes before (handle config serde message) trace after () ∧
      property before trace after := by
  obtain ⟨⟨turns, before⟩, same, taken⟩ := (Option.any_eq_true _ _).mp played
  obtain ⟨⟨trace, after, _⟩, replayed, holds⟩ := (Option.any_eq_true _ _).mp taken
  exact ⟨turns, before, trace, after, play_run same,
    Completes.of_replay (respond_faithful surroundings) replayed, of_decide_eq_true holds⟩

/-- A small deployment for concrete runs: one witness is enough, nothing is
known about any address. -/
def sampleConfig : Config := ⟨100, 50, 1, fun value => if value then "true" else "false"⟩

def sampleSurroundings : Surroundings := ⟨.sorted, 0, fun _ => none⟩

/-- The key a call may write. -/
def MarciCall.writes : MarciCall → Option String
  | .redis command => command.writes
  | _ => none

/-- The key a call stores a value under. -/
def MarciCall.stores : MarciCall → Option String
  | .redis command => command.stores
  | _ => none

variable {before after : State} {trace : HandlerTrace}

theorem drift_fades (quiet : ReflTransGen world.drifts before after) :
    before.redis.Fades after.redis := by
  induction quiet with
  | refl => exact .refl _ _
  | tail _ step inductionHypothesis =>
    cases step with
    | redis drifts => exact inductionHypothesis.trans drifts.fades

/-- A handler that may write certain keys only leaves all others to time. -/
theorem frame_within {handler : Handler α} {keys : Set String}
    (within : handler.Within fun question => ∀ key, question.writes = some key → key ∈ keys)
    (reaches : Reaches world before handler trace after) :
    before.redis.FadesOutside keys after.redis := by
  refine Reaches.relates (fun earlier later : State =>
    earlier.redis.FadesOutside keys later.redis) (fun state => .refl _ _)
    (fun first last => first.trans last) ?_ ?_ within reaches
  · intro earlier later drifts
    exact (drift_fades (.single drifts)).mono (Set.empty_subset _)
  · intro asked question reply replied permitted answered
    cases answered with
    | redis executed =>
      exact (execute_frame executed).mono fun key written => permitted key written
    | _ => exact .refl _ _

end CkbDiscovery.Marci
