import CkbDiscovery.Marci.Loop

/-! Single commands inside a handler: what a completed execution of each says
about the store it met and the store it left. -/

namespace CkbDiscovery.Marci

open Effect Redis
open Relation (ReflTransGen)

variable {before after : State} {trace : HandlerTrace}

/-- One command between two stretches of time. -/
structure Served (command : Command) (value : command.Reply) (before after : State)
    (asked : State) : Prop where
  earlier : before.redis.Fades asked.redis
  executed : ∃ order replied, execute order asked.redis command = .ok (value, replied) ∧
    replied.Fades after.redis

theorem HandlerCompletes.send {command : Command} {reply : Except RedisError command.Reply}
    (completes : HandlerCompletes before (Client.send command) trace after reply) :
    ∃ asked value, reply = .ok value ∧ trace = [⟨asked, .redis command, .ok value⟩] ∧
      Served command value before after asked := by
  obtain ⟨asked, replied, rfl, quiet, answered, later⟩ := Completes.of_perform completes
  cases answered with
  | redis executed =>
    exact ⟨asked, _, rfl, rfl, drift_fades quiet, _, _, executed, drift_fades later⟩

theorem HandlerCompletes.orReturn {handler : Handler (Except ε α)} {value : α}
    (completes : HandlerCompletes before (orReturn handler) trace after value) :
    HandlerCompletes before handler trace after (.ok value) := by
  obtain ⟨first, middle, reply, rest, asked, answered, rfl⟩ := Completes.split completes
  cases reply with
  | ok content =>
    obtain ⟨rfl, quiet, rfl⟩ := Completes.of_done answered
    simpa using asked.drift_right quiet
  | error _ => exact (Completes.of_stop answered).elim

theorem HandlerCompletes.unwrapOr {handler : Handler (Except ε α)} {default value : α}
    (completes : HandlerCompletes before (unwrapOr default handler) trace after value) :
    ∃ reply, HandlerCompletes before handler trace after reply ∧
      value = match reply with | .ok content => content | .error _ => default := by
  obtain ⟨first, middle, reply, rest, asked, answered, rfl⟩ := Completes.split completes
  refine ⟨reply, ?_⟩
  cases reply <;>
  · obtain ⟨rfl, quiet, same⟩ := Completes.of_done answered
    exact ⟨by simpa using asked.drift_right quiet, same⟩

/-- A command whose error ends the handler. -/
theorem HandlerCompletes.command {command : Command} {value : command.Reply}
    (completes : HandlerCompletes before (Redis.orReturn (Client.send command)) trace after value) :
    ∃ asked, trace = [⟨asked, .redis command, .ok value⟩] ∧
      Served command value before after asked := by
  obtain ⟨asked, reply, same, rfl, served⟩ := completes.orReturn.send
  cases same
  exact ⟨asked, rfl, served⟩

theorem HandlerCompletes.tryIntoI64 {value : UInt64} {seconds : Nat}
    (completes : HandlerCompletes before (tryIntoI64 value) trace after seconds) :
    seconds = value.toNat ∧ before.redis.Fades after.redis := by
  unfold Marci.tryIntoI64 at completes
  split at completes
  · obtain ⟨_, quiet, same⟩ := Completes.of_done completes
    exact ⟨same, drift_fades quiet⟩
  · exact (Completes.of_stop completes).elim

theorem HandlerCompletes.done {value result : α}
    (completes : HandlerCompletes before (.done value) trace after result) :
    before.redis.Fades after.redis ∧ result = value := by
  obtain ⟨_, quiet, same⟩ := Completes.of_done completes
  exact ⟨drift_fades quiet, same⟩

/-- Reading a text: an error means that the key was not there. -/
theorem HandlerCompletes.getString {key : String} {reply : Except RedisError String}
    (completes : HandlerCompletes before (Client.getString key) trace after reply) :
    ∃ asked answer, trace = [⟨asked, .redis (.get key), answer⟩] ∧
      before.redis.Fades asked.redis ∧ asked.redis.Fades after.redis ∧
      match reply with
      | .ok content => asked.redis.text? key = some content
      | .error _ => asked.redis.find? key = none := by
  obtain ⟨first, middle, raw, rest, sent, converted, rfl⟩ := Completes.split completes
  obtain ⟨asked, value, rfl, rfl, earlier, order, replied, executed, later⟩ :=
    HandlerCompletes.send sent
  obtain ⟨rfl, found, missing⟩ := execute_get executed
  cases value with
  | none =>
    obtain ⟨rfl, quiet, rfl⟩ := Completes.of_done converted
    exact ⟨asked, _, rfl, earlier, later.trans (drift_fades quiet), missing.mp rfl⟩
  | some content =>
    obtain ⟨rfl, quiet, rfl⟩ := Completes.of_done converted
    exact ⟨asked, _, rfl, earlier, later.trans (drift_fades quiet), found.symm⟩

theorem Served.frame {command : Command} {value : command.Reply} {asked : State}
    (served : Served command value before after asked) :
    before.redis.FadesOutside {key | command.writes = some key} after.redis := by
  obtain ⟨earlier, order, replied, executed, later⟩ := served
  exact ((earlier.mono (Set.empty_subset _)).trans (execute_frame executed)).trans
    (later.mono (Set.empty_subset _))

theorem Served.clock {command : Command} {value : command.Reply} {asked : State}
    (served : Served command value before after asked) :
    before.redis.now ≤ asked.redis.now ∧ asked.redis.now ≤ after.redis.now := by
  obtain ⟨earlier, order, replied, executed, later⟩ := served
  exact ⟨earlier.clock, (execute_frame executed).clock.trans later.clock⟩

theorem Served.set {key value : String} {asked : State}
    (served : Served (.set key value) () before after asked) :
    after.redis.find? key = some ⟨.text value, none⟩ := by
  obtain ⟨_, order, replied, executed, later⟩ := served
  exact later.kept key (Set.notMem_empty _) _ (execute_set executed) rfl

theorem Served.setEx {key value : String} {seconds : Nat} {asked : State}
    (served : Served (.setEx key value seconds) () before after asked) :
    0 < seconds ∧ ∀ entry, after.redis.find? key = some entry →
      entry = ⟨.text value, some (asked.redis.now + 1000 * seconds)⟩ := by
  obtain ⟨_, order, replied, executed, later⟩ := served
  obtain ⟨positive, placed⟩ := execute_setEx executed
  refine ⟨positive, fun entry found => ?_⟩
  exact Option.some.inj ((later.older key (Set.notMem_empty _) entry found).symm.trans placed)

/-- The key may have been lost on either side of the command; what is left is
the entry that was there before, with a fresh deadline. -/
theorem Served.expire {key : String} {seconds value : Nat} {asked : State}
    (served : Served (.expire key seconds) value before after asked) :
    ∀ entry, after.redis.find? key = some entry →
      0 < seconds ∧ ∃ previous, before.redis.find? key = some previous ∧
        entry = { previous with deadline := some (asked.redis.now + 1000 * seconds) } := by
  obtain ⟨earlier, order, replied, executed, later⟩ := served
  obtain ⟨moves, deletes⟩ := execute_expire executed
  intro entry found
  have placed := later.older key (Set.notMem_empty _) entry found
  rcases Nat.eq_zero_or_pos seconds with zero | positive
  · rw [deletes zero] at placed
    cases placed
  · rw [moves positive] at placed
    obtain ⟨previous, met, moved⟩ := Option.map_eq_some_iff.mp placed
    exact ⟨positive, previous, earlier.older key (Set.notMem_empty _) previous met, moved.symm⟩

theorem Served.del {key : String} {value : Nat} {asked : State}
    (served : Served (.del key) value before after asked) : after.redis.find? key = none := by
  obtain ⟨_, order, replied, executed, later⟩ := served
  exact later.absent (Set.notMem_empty _) (execute_del executed)

/-- What is under the key, if anything, has no deadline. -/
def Timeless (store : Store) (key : String) : Prop :=
  ∀ entry, store.find? key = some entry → entry.deadline = none

theorem timeless_of_found {store : Store} {key : String} {value : Value}
    (found : store.find? key = some ⟨value, none⟩) : Timeless store key := by
  intro entry located
  obtain rfl := Option.some.inj (found.symm.trans located)
  rfl

theorem timeless_of_missing {store : Store} {key : String} (missing : store.find? key = none) :
    Timeless store key := by
  intro entry located
  rw [missing] at located
  cases located

/-- Time does not touch a key without a deadline. -/
theorem Timeless.unchanged {earlier later : Store} {keys : Set String} {key : String}
    (timeless : Timeless earlier key) (fades : earlier.FadesOutside keys later)
    (outside : key ∉ keys) : later.find? key = earlier.find? key := by
  cases found : earlier.find? key with
  | none => exact fades.absent outside found
  | some entry => exact fades.kept key outside entry found (timeless entry found)

theorem Timeless.of_same {earlier later : Store} {key : String} (timeless : Timeless earlier key)
    (same : later.find? key = earlier.find? key) : Timeless later key := by
  intro entry located
  exact timeless entry (same ▸ located)

theorem members_of_same {earlier later : Store} {key : String}
    (same : later.find? key = earlier.find? key) : later.members key = earlier.members key := by
  rw [Store.members, same, ← Store.members]

theorem Timeless.members_of_fades {earlier later : Store} {keys : Set String} {key : String}
    (timeless : Timeless earlier key) (fades : earlier.FadesOutside keys later)
    (outside : key ∉ keys) : later.members key = earlier.members key ∧ Timeless later key :=
  have same := timeless.unchanged fades outside
  ⟨members_of_same same, timeless.of_same same⟩

theorem Served.sadd {key member : String} {value : Nat} {asked : State}
    (served : Served (.sadd key member) value before after asked)
    (timeless : Timeless before.redis key) :
    after.redis.find? key = some ⟨.set (insert member (before.redis.members key)), none⟩ := by
  obtain ⟨earlier, order, replied, executed, later⟩ := served
  obtain ⟨same, still⟩ := timeless.members_of_fades earlier (Set.notMem_empty _)
  rw [← same]
  exact later.kept key (Set.notMem_empty _) _ ((execute_sadd executed).2 still) rfl

theorem Served.scard {key : String} {value : Nat} {asked : State}
    (served : Served (.scard key) value before after asked) :
    value = (asked.redis.members key).card := by
  obtain ⟨_, order, replied, executed, _⟩ := served
  exact (execute_scard executed).2

end CkbDiscovery.Marci
