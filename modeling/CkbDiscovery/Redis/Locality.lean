import CkbDiscovery.Effect.Commute
import CkbDiscovery.Redis.Command

/-! Commands about one key see and change nothing else, so commands about
different keys may be exchanged. -/

namespace CkbDiscovery.Redis

open Effect

/-- The one key a command reads or writes. -/
def Command.touches : Command → Option String
  | .get key | .set key _ | .setEx key _ _ | .expire key _ | .del key | .sadd key _ | .scard key
  | .smembers key => some key
  | .keys _ => none

/-- What becomes of one key. -/
inductive Change where
  | keep
  | place (entry : Entry)
  | drop

def Change.apply (change : Change) (key : String) (store : Store) : Store :=
  match change with
  | keep => store
  | place entry => store.put key entry
  | drop => store.remove key

@[simp] theorem Change.apply_now (change : Change) (key : String) (store : Store) :
    (change.apply key store).now = store.now := by
  cases change <;> rfl

theorem Change.apply_find? (change : Change) {key other : String} (different : other ≠ key)
    (store : Store) : (change.apply key store).find? other = store.find? other := by
  cases change with
  | keep => rfl
  | place entry => exact store.find?_put_of_ne entry different
  | drop => exact store.find?_remove_of_ne different

theorem Change.apply_comm (first second : Change) {left right : String} (different : left ≠ right)
    (store : Store) :
    second.apply right (first.apply left store) = first.apply left (second.apply right store) := by
  have erased (entry : Entry) (key other : String) (apart : key ≠ other) :
      (store.entries.insert key entry).erase other = (store.entries.erase other).insert key entry := by
    apply Finmap.ext_lookup
    intro asked
    by_cases same : asked = other
    · subst same
      simp [Finmap.lookup_insert_of_ne _ (Ne.symm apart)]
    · by_cases here : asked = key
      · subst here
        simp [Finmap.lookup_erase_ne same]
      · simp [Finmap.lookup_erase_ne same, Finmap.lookup_insert_of_ne _ here]
  cases first with
  | keep => rfl
  | place entry =>
    cases second with
    | keep => rfl
    | place other => simp [apply, Store.put, Finmap.insert_insert_of_ne _ different]
    | drop => simp [apply, Store.put, Store.remove, erased entry left right different]
  | drop =>
    cases second with
    | keep => rfl
    | place other => simp [apply, Store.put, Store.remove, erased other right left (Ne.symm different)]
    | drop => simp [apply, Store.remove, Finmap.erase_erase]

/-- The reply and the change, from the clock and from what the key holds. The
listing of keys is about no key. -/
def Command.effect (order : Enumeration) (now : Nat) (found : Option Entry) :
    (command : Command) → Except RedisError (command.Reply × Change)
  | .get _ => match found with
    | none => .ok (none, .keep)
    | some ⟨.text content, _⟩ => .ok (some content, .keep)
    | some ⟨.set _, _⟩ => .error .wrongType
  | .set _ value => .ok ((), .place ⟨.text value, none⟩)
  | .setEx _ value seconds =>
    if seconds = 0 then .error .invalidExpire else
    match deadlineAfter now seconds with
    | none => .error .invalidExpire
    | some deadline => .ok ((), .place ⟨.text value, some deadline⟩)
  | .expire _ seconds => match deadlineAfter now seconds with
    | none => .error .invalidExpire
    | some deadline => match found with
      | none => .ok ((0 : Nat), .keep)
      | some entry =>
        if seconds = 0 then .ok ((1 : Nat), .drop)
        else .ok ((1 : Nat), .place { entry with deadline := some deadline })
  | .del _ => .ok (if found.isSome then (1 : Nat) else (0 : Nat), .drop)
  | .sadd _ member => match found with
    | none => .ok ((1 : Nat), .place ⟨.set {member}, none⟩)
    | some ⟨.set members, deadline⟩ => .ok (if member ∈ members then (0 : Nat) else (1 : Nat),
        .place ⟨.set (insert member members), deadline⟩)
    | some ⟨.text _, _⟩ => .error .wrongType
  | .scard _ => match found with
    | none => .ok ((0 : Nat), .keep)
    | some ⟨.set members, _⟩ => .ok (members.card, .keep)
    | some ⟨.text _, _⟩ => .error .wrongType
  | .smembers _ => match found with
    | none => .ok ([], .keep)
    | some ⟨.set members, _⟩ => .ok (order.list members, .keep)
    | some ⟨.text _, _⟩ => .error .wrongType
  | .keys _ => .ok ([], .keep)

theorem execute_local (order : Enumeration) {command : Command} {key : String}
    (touched : command.touches = some key) (store : Store) :
    execute order store command = (command.effect order store.now (store.find? key)).map
      fun result => (result.1, result.2.apply key store) := by
  cases command with
  | get key | sadd key member | scard key | smembers key =>
    cases touched
    simp only [execute, Command.effect]
    cases store.find? key with
    | none => rfl
    | some entry =>
      obtain ⟨value, deadline⟩ := entry
      cases value <;> rfl
  | set key value => cases touched; rfl
  | del key => cases touched; rfl
  | setEx key value seconds =>
    cases touched
    simp only [execute, Command.effect]
    split
    · rfl
    · cases deadlineAfter store.now seconds <;> rfl
  | expire key seconds =>
    cases touched
    simp only [execute, Command.effect]
    cases deadlineAfter store.now seconds with
    | none => rfl
    | some deadline =>
      cases store.find? key with
      | none => rfl
      | some entry =>
        dsimp only
        split <;> rfl
  | keys pattern => cases touched

/-- A command as a computation on the store; one that fails has no result. -/
def Command.step (order : Enumeration) (command : Command) : StateT Store Option command.Reply :=
  fun store => (execute order store command).toOption

/-- A computation that reads and writes one key. -/
def localStep (key : String) (effect : Nat → Option Entry → Option (α × Change)) :
    StateT Store Option α := fun store =>
  (effect store.now (store.find? key)).map fun result => (result.1, result.2.apply key store)

theorem localStep_commutes {left right : String} (different : left ≠ right)
    (first : Nat → Option Entry → Option (α × Change))
    (second : Nat → Option Entry → Option (β × Change)) :
    Commutes (localStep left first) (localStep right second) := by
  constructor
  intro γ next
  funext store
  change ((localStep left first store) >>= fun one => (localStep right second one.2) >>= fun two =>
      next one.1 two.1 two.2) =
    ((localStep right second store) >>= fun two => (localStep left first two.2) >>= fun one =>
      next one.1 two.1 one.2)
  unfold localStep
  cases here : first store.now (store.find? left) with
  | none =>
    cases second store.now (store.find? right) with
    | none => rfl
    | some other =>
      simp [Change.apply_find? other.2 different, here]
  | some one =>
    cases there : second store.now (store.find? right) with
    | none => simp [Change.apply_find? one.2 (Ne.symm different), there]
    | some two =>
      simp [Change.apply_find? one.2 (Ne.symm different), Change.apply_find? two.2 different, here, there,
        Change.apply_comm one.2 two.2 different]

theorem step_local (order : Enumeration) {command : Command} {key : String}
    (touched : command.touches = some key) :
    command.step order = localStep key fun now found => (command.effect order now found).toOption := by
  funext store
  rw [Command.step, execute_local order touched, localStep]
  cases command.effect order store.now (store.find? key) <;> rfl

/-- Commands about different keys may be exchanged. -/
theorem step_commutes (order : Enumeration) {first second : Command} {left right : String}
    (leftTouched : first.touches = some left) (rightTouched : second.touches = some right)
    (different : left ≠ right) : Commutes (first.step order) (second.step order) := by
  rw [step_local order leftTouched, step_local order rightTouched]
  exact localStep_commutes different _ _

@[simp] theorem Store.put_put (store : Store) (key : String) (first second : Entry) :
    (store.put key first).put key second = store.put key second := by
  simp [Store.put, Finmap.insert_insert]

@[simp] theorem Store.remove_remove (store : Store) (key : String) :
    (store.remove key).remove key = store.remove key := by
  have erased : (store.entries.erase key).erase key = store.entries.erase key := by
    apply Finmap.ext_lookup
    intro asked
    by_cases same : asked = key
    · rw [same, Finmap.lookup_erase, Finmap.lookup_erase]
    · rw [Finmap.lookup_erase_ne same]
  simp [Store.remove, erased]

/-- An entry put where it is already changes nothing. -/
theorem Store.put_same {store : Store} {key : String} {entry : Entry}
    (found : store.find? key = some entry) : store.put key entry = store := by
  have inserted : store.entries.insert key entry = store.entries := by
    apply Finmap.ext_lookup
    intro asked
    by_cases same : asked = key
    · rw [same, Finmap.lookup_insert]
      exact (Option.filter_eq_some_iff.mp found).1.symm
    · rw [Finmap.lookup_insert_of_ne _ same]
  simp [Store.put, inserted]

/-- A member added again changes nothing. -/
theorem execute_sadd_again (order : Enumeration) {store : Store} {key member : String}
    (present : member ∈ store.members key) :
    execute order store (.sadd key member) = .ok ((0 : Nat), store) := by
  cases found : store.find? key with
  | none => simp [Store.members, found] at present
  | some entry =>
    obtain ⟨value, deadline⟩ := entry
    cases value with
    | text content => simp [Store.members, found] at present
    | set members =>
      have listed : member ∈ members := by simpa [Store.members, found] using present
      have same : insert member members = members := Finset.insert_eq_of_mem listed
      simp [execute, found, listed, Store.put_same found]

end CkbDiscovery.Redis
