import CkbDiscovery.Effect.Evaluate
import CkbDiscovery.Redis.Client

/-! Read-only programs on one store that does not change under them. -/

namespace CkbDiscovery.Redis

open Effect Program

abbrev ReadReply (command : Command) := Except RedisError command.Reply

instance : Client ReadReply where
  send command := (.perform command : Program ReadReply (ReadReply command))

/-- The answers of a server whose store stands still. -/
def snapshot (order : Enumeration) (store : Store) (command : Command) : ReadReply command :=
  (execute order store command).map Prod.fst

variable (order : Enumeration) (store : Store)

@[simp] theorem evaluate_keys (pattern : String) :
    (Client.keys pattern : Program ReadReply _).evaluate (snapshot order store) =
      some (.ok (order.list (store.liveKeys.filter fun key => globMatches pattern key))) := rfl

/-- The conversion of a stored value to a text. -/
theorem snapshot_get (key : String) :
    snapshot order store (.get key) = match store.find? key with
      | none => .ok none
      | some ⟨.text content, _⟩ => .ok (some content)
      | some ⟨.set _, _⟩ => .error .wrongType := by
  rcases found : store.find? key with _ | ⟨_ | _, _⟩ <;> simp [snapshot, execute, found, Except.map]

theorem evaluate_getString {key content : String} (stored : store.text? key = some content) :
    (Client.getString key : Program ReadReply _).evaluate (snapshot order store) =
      some (.ok content) := by
  have sent : (Client.send (.get key) : Program ReadReply _).evaluate (snapshot order store) =
      some (snapshot order store (.get key)) := rfl
  rw [Client.getString, evaluate_bind, sent, snapshot_get]
  unfold Store.text? at stored
  split at stored
  · rename_i found
    rw [found]
    cases stored
    rfl
  · cases stored

end CkbDiscovery.Redis
