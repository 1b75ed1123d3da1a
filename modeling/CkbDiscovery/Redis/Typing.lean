import CkbDiscovery.Redis.Command

/-! Keyspaces in which every key has a type: the given keys hold sets, all
others hold texts. A command that respects the types is not refused. -/

namespace CkbDiscovery.Redis

def Value.IsSet : Value → Prop
  | .text _ => False
  | .set _ => True

def Store.Typed (sets : Set String) (store : Store) : Prop :=
  ∀ key entry, store.find? key = some entry → (entry.value.IsSet ↔ key ∈ sets)

/-- The command treats its key as what it holds. -/
def Command.Typed (sets : Set String) : Command → Prop
  | .get key | .set key _ | .setEx key _ _ => key ∉ sets
  | .sadd key _ | .scard key | .smembers key => key ∈ sets
  | .expire _ _ | .del _ | .keys _ => True

/-- The deadline that the command sets, if any, is one that the server takes. -/
def Command.Timely (now : Nat) : Command → Prop
  | .setEx _ _ seconds => 0 < seconds ∧ now + 1000 * seconds < 2 ^ 63
  | .expire _ seconds => now + 1000 * seconds < 2 ^ 63
  | _ => True

variable {sets : Set String} {store after : Store} {order : Enumeration}

theorem typed_empty (now : Nat) : (Store.empty now).Typed sets := by
  intro key entry found
  cases found

theorem Store.Typed.fades (typed : store.Typed sets) (fades : store.Fades after) : after.Typed sets :=
  fun key entry found => typed key entry (fades.older key (Set.notMem_empty key) entry found)

theorem Store.Typed.text (typed : store.Typed sets) {key : String} (plain : key ∉ sets) {entry : Entry}
    (found : store.find? key = some entry) : ∃ content, entry.value = .text content := by
  cases held : entry.value with
  | text content => exact ⟨content, rfl⟩
  | set members =>
    refine absurd ((typed key entry found).mp ?_) plain
    rw [held]
    trivial

theorem Store.Typed.set (typed : store.Typed sets) {key : String} (listed : key ∈ sets) {entry : Entry}
    (found : store.find? key = some entry) : ∃ members, entry.value = .set members := by
  cases held : entry.value with
  | text content =>
    have set := (typed key entry found).mpr listed
    rw [held] at set
    cases set
  | set members => exact ⟨members, rfl⟩

/-- What is found under a key that was just stored is what was stored. -/
theorem Store.of_find?_put {key : String} {entry found : Entry}
    (read : (store.put key entry).find? key = some found) : found = entry := by
  have looked := (Option.filter_eq_some_iff.mp read).1
  rw [Store.put, Finmap.lookup_insert] at looked
  exact (Option.some.inj looked).symm

/-- Preservation: a command that respects the types keeps them. -/
theorem execute_typed {command : Command} {reply : command.Reply} (typed : store.Typed sets)
    (respects : command.Typed sets) (executed : execute order store command = .ok (reply, after)) :
    after.Typed sets := by
  intro key entry found
  by_cases stored : command.stores = some key
  · cases command with
    | set other value =>
      obtain rfl := Option.some.inj stored
      cases executed
      obtain rfl := Store.of_find?_put found
      exact iff_of_false id respects
    | setEx other value seconds =>
      obtain rfl := Option.some.inj stored
      rw [(execute_setEx executed).2] at found
      cases found
      exact iff_of_false id respects
    | sadd other member =>
      obtain rfl := Option.some.inj stored
      refine iff_of_true ?_ respects
      simp only [execute] at executed
      split at executed <;> cases executed
      · obtain rfl := Store.of_find?_put found
        trivial
      · obtain rfl := Store.of_find?_put found
        trivial
    | get other | expire other seconds | del other | scard other | smembers other | keys pattern =>
      cases stored
  · obtain ⟨old, held, same⟩ := execute_value_before executed stored found
    rw [← same]
    exact typed key old held

/-- Progress: a command that respects the types and the clock is executed. -/
theorem execute_progress (order : Enumeration) {command : Command} (typed : store.Typed sets)
    (respects : command.Typed sets) (timely : command.Timely store.now) :
    ∃ reply after, execute order store command = .ok (reply, after) := by
  cases command with
  | get key =>
    simp only [execute]
    split
    · exact ⟨_, _, rfl⟩
    · exact ⟨_, _, rfl⟩
    · rename_i found
      obtain ⟨content, same⟩ := typed.text respects found
      cases same
  | set key value => exact ⟨_, _, rfl⟩
  | setEx key value seconds =>
    obtain ⟨positive, limit⟩ := timely
    simp only [execute, if_neg positive.ne', deadlineAfter, if_pos limit]
    exact ⟨_, _, rfl⟩
  | expire key seconds =>
    simp only [execute, deadlineAfter, if_pos (show store.now + 1000 * seconds < 2 ^ 63 from timely)]
    split
    · exact ⟨_, _, rfl⟩
    · split <;> exact ⟨_, _, rfl⟩
  | del key => exact ⟨_, _, rfl⟩
  | sadd key member =>
    simp only [execute]
    split
    · exact ⟨_, _, rfl⟩
    · exact ⟨_, _, rfl⟩
    · rename_i found
      obtain ⟨members, same⟩ := typed.set respects found
      cases same
  | scard key =>
    simp only [execute]
    split
    · exact ⟨_, _, rfl⟩
    · exact ⟨_, _, rfl⟩
    · rename_i found
      obtain ⟨members, same⟩ := typed.set respects found
      cases same
  | smembers key =>
    simp only [execute]
    split
    · exact ⟨_, _, rfl⟩
    · exact ⟨_, _, rfl⟩
    · rename_i found
      obtain ⟨members, same⟩ := typed.set respects found
      cases same
  | keys pattern => exact ⟨_, _, rfl⟩

end CkbDiscovery.Redis
