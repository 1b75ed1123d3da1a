import CkbDiscovery.Marci.Records

/-! Keys that lapse when their deadline has passed and never before: how long
an online record is then held. -/

namespace CkbDiscovery.Marci

open Effect Redis
open Relation (ReflTransGen)

/-- Nothing moves between calls but the clock. -/
inductive ClockDrifts : State → State → Prop where
  | wait (duration : Nat) : ClockDrifts state (state.wait duration)

def punctualWorld : World State MarciCall.Reply := ⟨Answers, ClockDrifts⟩

abbrev PunctualRun (config : Config) (serde : Serde) : State → List MarciTurn → State → Prop :=
  Run punctualWorld (handle config serde)

variable {config : Config} {serde : Serde} {before after : State} {trace : HandlerTrace}
  {peerId key : String} {turns : List MarciTurn} {handler : Handler α} {value : α}

theorem ClockDrifts.drifts (drifts : ClockDrifts before after) : world.drifts before after := by
  cases drifts with
  | wait duration => exact .redis (.elapse before.redis duration)

theorem punctual_completes (completes : Completes punctualWorld before handler trace after value) :
    HandlerCompletes before handler trace after value :=
  Completes.mono punctualWorld world ClockDrifts.drifts id completes

theorem punctual_run (run : PunctualRun config serde before turns after) :
    MarciRun config serde before turns after :=
  Run.mono punctualWorld world ClockDrifts.drifts id run

theorem play_punctual {surroundings : Surroundings} {script : List (Nat × Message)}
    (played : play config serde surroundings script before = some (turns, after)) :
    PunctualRun config serde before turns after := by
  have faithful : Faithful punctualWorld (respond surroundings) := respond_faithful surroundings
  exact Run.of_replay faithful (fun duration _ => .single (.wait duration)) played

/-- The key has an entry that lapses no earlier than the deadline. -/
def Held (store : Store) (key : String) (deadline : Nat) : Prop :=
  ∃ entry, store.find? key = some entry ∧ ∀ limit, entry.deadline = some limit → deadline ≤ limit

/-- Until the deadline a key that is held stays held. -/
structure Lasts (key : String) (seconds deadline : Nat) (before after : Store) : Prop where
  clock : before.now ≤ after.now
  held : deadline ≤ before.now + 1000 * seconds → Held before key deadline →
    after.now ≤ deadline → Held after key deadline

theorem Lasts.refl (key : String) (seconds deadline : Nat) (store : Store) :
    Lasts key seconds deadline store store := ⟨Nat.le_refl _, fun _ held _ => held⟩

theorem Lasts.trans {seconds deadline : Nat} {first second third : Store}
    (earlier : Lasts key seconds deadline first second)
    (later : Lasts key seconds deadline second third) : Lasts key seconds deadline first third where
  clock := earlier.clock.trans later.clock
  held near held inTime := by
    have clock := earlier.clock
    have between := later.clock
    exact later.held (by omega) (earlier.held near held (by omega)) inTime

theorem lasts_wait (key : String) (seconds deadline duration : Nat) (state : State) :
    Lasts key seconds deadline state.redis (state.wait duration).redis := by
  refine ⟨(Store.fades_elapse state.redis duration).clock, ?_⟩
  rintro _ ⟨entry, found, limit⟩ inTime
  refine ⟨entry, ?_, limit⟩
  obtain ⟨stored, _⟩ := Option.filter_eq_some_iff.mp found
  refine Option.filter_eq_some_iff.mpr ⟨stored, ?_⟩
  rw [Entry.aliveAt, Option.all_eq_true]
  intro last same
  exact decide_eq_true (inTime.trans (limit last same))

/-- All that is ever done to a record is to store it for a time or to renew it. -/
def Renews (key : String) (seconds : Nat) (question : MarciCall) : Prop :=
  question.writes = some key →
    (∃ version, question = .redis (.setEx key version seconds)) ∨
      question = .redis (.expire key seconds)

theorem lasts_answer {asked replied : State} {question : MarciCall} {reply : question.Reply}
    {seconds deadline : Nat} (positive : 0 < seconds) (renews : Renews key seconds question)
    (answered : Answers asked question reply replied) :
    Lasts key seconds deadline asked.redis replied.redis := by
  cases answered with
  | redis executed =>
    rename_i order command value store
    obtain ⟨clock, same⟩ := execute_exact executed
    refine ⟨clock.ge, fun near held inTime => ?_⟩
    by_cases written : command.writes = some key
    · rcases renews written with ⟨version, stores⟩ | renewed
      · cases stores
        obtain ⟨_, placed⟩ := execute_setEx executed
        exact ⟨_, placed, by rintro limit ⟨⟩; exact near⟩
      · cases renewed
        obtain ⟨entry, found, _⟩ := held
        have moved := (execute_expire executed).1 positive
        rw [found] at moved
        exact ⟨_, moved, by rintro limit ⟨⟩; exact near⟩
    · obtain ⟨entry, found, limit⟩ := held
      exact ⟨entry, by rw [same key written, found], limit⟩
  | _ => exact .refl _ _ _ _

theorem lasts_of_completes {seconds deadline : Nat} (positive : 0 < seconds)
    (renews : handler.Within (Renews key seconds))
    (completes : Completes punctualWorld before handler trace after value) :
    Lasts key seconds deadline before.redis after.redis := by
  refine Reaches.relates (fun earlier later : State =>
    Lasts key seconds deadline earlier.redis later.redis) (fun _ => .refl _ _ _ _)
    (fun first last => first.trans last) ?_ (lasts_answer positive) renews completes.reaches
  intro earlier later drifts
  cases drifts with
  | wait duration => exact lasts_wait _ _ _ _ _

theorem answered_clock {asked replied : State} {question : MarciCall} {reply : question.Reply}
    (answered : Answers asked question reply replied) : asked.redis.now ≤ replied.redis.now := by
  cases answered with
  | redis executed => exact (execute_exact executed).1.ge
  | _ => exact Nat.le_refl _

theorem quietly (quiet : ReflTransGen punctualWorld.drifts before after) :
    ReflTransGen world.drifts before after :=
  ReflTransGen.mono (fun _ _ drifts => ClockDrifts.drifts drifts) _ _ quiet

/-- A record stored during an execution is held until the deadline after it. -/
theorem held_of_stored {seconds deadline : Nat} {version : String}
    (renews : handler.Within (Renews key seconds))
    (completes : Completes punctualWorld before handler trace after value)
    (stored : ∃ event ∈ trace, event.question = .redis (.setEx key version seconds))
    (near : deadline ≤ before.redis.now + 1000 * seconds) (inTime : after.redis.now ≤ deadline) :
    Held after.redis key deadline := by
  induction completes with
  | done _ => simp at stored
  | ask quiet answered rest inductionHypothesis =>
    have waited := (drift_fades (quietly quiet)).clock
    have clock := answered_clock answered
    obtain ⟨event, member, stores⟩ := stored
    rcases List.mem_cons.mp member with head | later
    · subst head
      dsimp only at stores
      subst stores
      cases answered with
      | redis executed =>
        obtain ⟨positive, placed⟩ := execute_setEx executed
        have lasts : Lasts key seconds deadline _ _ :=
          lasts_of_completes positive (renews.2 _) rest
        refine lasts.held ?_ ⟨_, placed, ?_⟩ inTime
        · exact near.trans (by dsimp only at clock ⊢; omega)
        · rintro limit ⟨⟩
          omega
    · exact inductionHypothesis (renews.2 _) ⟨event, later, stores⟩ (by omega) inTime

/-- Handlers that do not write the online record renew it vacuously. -/
theorem OnlyWrites.renews {broadcasts : Bool} {formats : List KeyFormat} {subject : String} {seconds : Nat}
    (only : OnlyWrites broadcasts formats subject handler)
    (outside : peerId ≠ subject ∨ .onlinePeer ∉ formats) :
    handler.Within (Renews (KeyFormat.onlinePeer.key peerId) seconds) :=
  only.implies .onlinePeer peerId outside.symm fun _ unwritten written => absurd written unwritten

theorem renews_expireOnline (subject : String) :
    (expireOnline config (KeyFormat.onlinePeer.key subject)).Within
      (Renews (KeyFormat.onlinePeer.key peerId) config.ckbNodeDefaultTimeout.toNat) := by
  unfold expireOnline tryIntoI64
  split
  · rw [Program.pure_eq_done, Program.done_bind]
    refine Program.Within.andThen (within_command fun written => .inr ?_) fun _ => trivial
    rw [← Option.some.inj written]
  · trivial

theorem renews_markOnline (peer : PeerInfo) :
    (markOnline config peer).Within
      (Renews (KeyFormat.onlinePeer.key peerId) config.ckbNodeDefaultTimeout.toNat) := by
  have read : OnlyWrites false [] peerId (Client.getString (KeyFormat.onlinePeer.key peer.info.peerId) :
      Handler _) := onlyWrites_getString _
  refine (read.renews (.inr List.not_mem_nil)).andThen fun reply => ?_
  cases reply with
  | ok _ => exact renews_expireOnline _
  | error _ =>
    dsimp only
    split
    · apply within_command
      intro written
      exact absurd (Option.some.inj written) (by simp)
    · apply within_command
      intro written
      exact .inl ⟨_, by rw [← Option.some.inj written]⟩

theorem renews_markUnknown (subject : String) :
    (markUnknown config subject).Within
      (Renews (KeyFormat.onlinePeer.key peerId) config.ckbNodeDefaultTimeout.toNat) := by
  have read : OnlyWrites false [] peerId (Client.getString (KeyFormat.onlinePeer.key subject) :
      Handler _) := onlyWrites_getString _
  refine (read.renews (.inr List.not_mem_nil)).andThen fun reply => ?_
  cases reply with
  | ok _ => exact renews_expireOnline _
  | error _ => exact (onlyWrites_verifyWitnesses subject).renews (.inr (by decide))

/-- Every branch of the loop leaves the online record alone, stores it for the
timeout or renews it for the timeout. -/
theorem renews_handle (message : Message) :
    (handle config serde message).Within
      (Renews (KeyFormat.onlinePeer.key peerId) config.ckbNodeDefaultTimeout.toNat) := by
  cases message with
  | online peer =>
    refine (renews_markOnline peer).andThen fun _ => ?_
    refine ((onlyWrites_locateOnline peer).renews (.inr (by decide))).andThen fun _ => ?_
    exact (onlyWrites_settleOnline peer).renews (.inr (by decide))
  | unknown peer =>
    refine (renews_markUnknown peer.peerId).andThen fun _ => ?_
    exact (onlyWrites_setLastSeen peer.peerId).renews (.inr (by decide))
  | reachable peer => exact (onlyWrites_handle (.reachable peer)).renews (.inr (by simp [Message.formats]))
  | tick => exact (onlyWrites_handle .tick).renews (.inr (by simp [Message.formats]))

end CkbDiscovery.Marci
