import CkbDiscovery.Redis.Glob
import CkbDiscovery.Redis.Store
import Mathlib.Data.List.Sort
import Mathlib.Data.String.Basic

/-! The commands a client issues, each atomic on the server. -/

namespace CkbDiscovery.Redis

inductive RedisError where
  | wrongType
  | invalidExpire
  | typeConversion
  | connection
  deriving DecidableEq, Repr

inductive Command where
  | get (key : String)
  | set (key value : String)
  | setEx (key value : String) (seconds : Nat)
  | expire (key : String) (seconds : Nat)
  | del (key : String)
  | sadd (key member : String)
  | scard (key : String)
  | smembers (key : String)
  | keys (pattern : String)
  deriving DecidableEq, Repr

abbrev Command.Reply : Command → Type
  | .get _ => Option String
  | .set .. => Unit
  | .setEx .. => Unit
  | .expire .. => Nat
  | .del _ => Nat
  | .sadd .. => Nat
  | .scard _ => Nat
  | .smembers _ => List String
  | .keys _ => List String

/-- The one key a command may write. -/
def Command.writes : Command → Option String
  | .set key _ | .setEx key _ _ | .expire key _ | .del key | .sadd key _ => some key
  | .get _ | .scard _ | .smembers _ | .keys _ => none

/-- The key a command stores a value under. -/
def Command.stores : Command → Option String
  | .set key _ | .setEx key _ _ | .sadd key _ => some key
  | _ => none

theorem Command.writes_of_stores {command : Command} {key : String}
    (stored : command.stores = some key) : command.writes = some key := by
  cases command <;> simp_all [Command.stores, Command.writes]

/-- The server lists keys and members in an order of its own. -/
structure Enumeration where
  list : Finset String → List String
  nodup : ∀ items, (list items).Nodup
  complete : ∀ items item, item ∈ list items ↔ item ∈ items

/-- Alphabetical, by a sort that evaluates. -/
def Enumeration.sorted : Enumeration where
  list items := Quotient.liftOn items.val (List.insertionSort (· ≤ ·)) fun first second same =>
    List.Perm.eq_of_sortedLE List.sortedLE_insertionSort List.sortedLE_insertionSort <|
      (List.perm_insertionSort _ first).trans (same.trans (List.perm_insertionSort _ second).symm)
  nodup := by
    intro given
    obtain ⟨⟨members⟩, distinct⟩ := given
    exact (List.perm_insertionSort _ members).nodup_iff.mpr distinct
  complete := by
    rintro ⟨⟨members⟩, distinct⟩ item
    exact List.mem_insertionSort _

/-- Milliseconds since the epoch are a signed 64-bit integer. -/
def deadlineAfter (now seconds : Nat) : Option Nat :=
  if now + 1000 * seconds < 2 ^ 63 then some (now + 1000 * seconds) else none

def execute (order : Enumeration) (store : Store) :
    (command : Command) → Except RedisError (command.Reply × Store)
  | .get key => match store.find? key with
    | none => .ok (none, store)
    | some ⟨.text content, _⟩ => .ok (some content, store)
    | some ⟨.set _, _⟩ => .error .wrongType
  | .set key value => .ok ((), store.put key ⟨.text value, none⟩)
  | .setEx key value seconds =>
    if seconds = 0 then .error .invalidExpire else
    match deadlineAfter store.now seconds with
    | none => .error .invalidExpire
    | some deadline => .ok ((), store.put key ⟨.text value, some deadline⟩)
  | .expire key seconds => match deadlineAfter store.now seconds with
    | none => .error .invalidExpire
    | some deadline => match store.find? key with
      | none => .ok ((0 : Nat), store)
      | some entry =>
        -- a deadline that is not in the future deletes the key at once
        if seconds = 0 then .ok ((1 : Nat), store.remove key)
        else .ok ((1 : Nat), store.put key { entry with deadline := some deadline })
  | .del key => .ok (if store.Live key then (1 : Nat) else (0 : Nat), store.remove key)
  | .sadd key member => match store.find? key with
    | none => .ok ((1 : Nat), store.put key ⟨.set {member}, none⟩)
    | some ⟨.set members, deadline⟩ =>
      .ok (if member ∈ members then (0 : Nat) else (1 : Nat),
        store.put key ⟨.set (insert member members), deadline⟩)
    | some ⟨.text _, _⟩ => .error .wrongType
  | .scard key => match store.find? key with
    | none => .ok ((0 : Nat), store)
    | some ⟨.set members, _⟩ => .ok (members.card, store)
    | some ⟨.text _, _⟩ => .error .wrongType
  | .smembers key => match store.find? key with
    | none => .ok ([], store)
    | some ⟨.set members, _⟩ => .ok (order.list members, store)
    | some ⟨.text _, _⟩ => .error .wrongType
  | .keys pattern =>
    .ok (order.list (store.liveKeys.filter fun key => globMatches pattern key), store)

variable {order : Enumeration} {store after : Store}

/-- A command keeps the clock and every key but the one it writes. -/
theorem execute_exact {command : Command} {reply : command.Reply}
    (executed : execute order store command = .ok (reply, after)) :
    after.now = store.now ∧
      ∀ key, command.writes ≠ some key → after.find? key = store.find? key := by
  cases command with
  | get key | scard key | smembers key =>
    simp only [execute] at executed
    split at executed <;> cases executed <;> exact ⟨rfl, fun _ _ => rfl⟩
  | keys pattern =>
    cases executed
    exact ⟨rfl, fun _ _ => rfl⟩
  | set key value =>
    cases executed
    exact ⟨rfl, fun other different => store.find?_put_of_ne _ fun same => different (same ▸ rfl)⟩
  | setEx key value seconds =>
    simp only [execute] at executed
    split at executed
    · cases executed
    · split at executed <;> cases executed
      exact ⟨rfl, fun other different => store.find?_put_of_ne _ fun same => different (same ▸ rfl)⟩
  | expire key seconds =>
    simp only [execute] at executed
    split at executed
    · cases executed
    · split at executed
      · cases executed
        exact ⟨rfl, fun _ _ => rfl⟩
      · split at executed <;> cases executed
        · exact ⟨rfl, fun other different =>
            store.find?_remove_of_ne fun same => different (same ▸ rfl)⟩
        · exact ⟨rfl, fun other different =>
            store.find?_put_of_ne _ fun same => different (same ▸ rfl)⟩
  | del key =>
    cases executed
    exact ⟨rfl, fun other different => store.find?_remove_of_ne fun same => different (same ▸ rfl)⟩
  | sadd key member =>
    simp only [execute] at executed
    split at executed <;> cases executed <;>
      exact ⟨rfl, fun other different => store.find?_put_of_ne _ fun same => different (same ▸ rfl)⟩

theorem execute_frame {command : Command} {reply : command.Reply}
    (executed : execute order store command = .ok (reply, after)) :
    store.FadesOutside {key | command.writes = some key} after := by
  obtain ⟨clock, same⟩ := execute_exact executed
  constructor
  · exact clock.ge
  · intro key outside entry found
    rwa [same key outside] at found
  · intro key outside entry found _
    rwa [same key outside]

theorem deadlineAfter_eq_some {now seconds deadline : Nat} :
    deadlineAfter now seconds = some deadline ↔
      now + 1000 * seconds < 2 ^ 63 ∧ deadline = now + 1000 * seconds := by
  unfold deadlineAfter
  split <;> simp_all [eq_comm]

theorem execute_get {key : String} {reply : Option String}
    (executed : execute order store (.get key) = .ok (reply, after)) :
    after = store ∧ reply = store.text? key ∧ (reply = none ↔ store.find? key = none) := by
  simp only [execute] at executed
  split at executed <;> cases executed <;> simp_all [Store.text?]

theorem execute_set {key value : String}
    (executed : execute order store (.set key value) = .ok ((), after)) :
    after.find? key = some ⟨.text value, none⟩ := by
  cases executed
  exact store.find?_put_self key rfl

theorem execute_setEx {key value : String} {seconds : Nat}
    (executed : execute order store (.setEx key value seconds) = .ok ((), after)) :
    0 < seconds ∧ after.find? key = some ⟨.text value, some (store.now + 1000 * seconds)⟩ := by
  simp only [execute] at executed
  split at executed
  · cases executed
  · rename_i positive
    split at executed
    · cases executed
    · rename_i deadline limit
      cases executed
      obtain ⟨_, rfl⟩ := deadlineAfter_eq_some.mp limit
      exact ⟨Nat.pos_of_ne_zero positive, store.find?_put_self key (by simp [Entry.aliveAt])⟩

/-- `EXPIRE` moves the deadline of a live key and does nothing to a missing
one; zero seconds delete. -/
theorem execute_expire {key : String} {seconds reply : Nat}
    (executed : execute order store (.expire key seconds) = .ok (reply, after)) :
    (0 < seconds → after.find? key = (store.find? key).map fun previous =>
        { previous with deadline := some (store.now + 1000 * seconds) }) ∧
      (seconds = 0 → after.find? key = none) := by
  simp only [execute] at executed
  split at executed
  · cases executed
  · rename_i deadline limit
    obtain ⟨_, rfl⟩ := deadlineAfter_eq_some.mp limit
    split at executed
    · rename_i missing
      cases executed
      simp [missing]
    · rename_i previous found
      split at executed
      · rename_i zero
        cases executed
        simp [zero]
      · rename_i positive
        cases executed
        rw [store.find?_put_self key (by simp [Entry.aliveAt]), found]
        exact ⟨fun _ => rfl, fun zero => absurd zero positive⟩

theorem execute_del {key : String} {reply : Nat}
    (executed : execute order store (.del key) = .ok (reply, after)) :
    after.find? key = none := by
  cases executed
  exact store.find?_remove_self key

/-- Only a command that stores under a key gives it a value. -/
theorem execute_value_before {command : Command} {reply : command.Reply} {key : String} {entry : Entry}
    (executed : execute order store command = .ok (reply, after))
    (unstored : command.stores ≠ some key) (found : after.find? key = some entry) :
    ∃ old, store.find? key = some old ∧ old.value = entry.value := by
  by_cases written : command.writes = some key
  · cases command with
    | expire other seconds =>
      obtain rfl := Option.some.inj written
      obtain ⟨moves, deletes⟩ := execute_expire executed
      rcases Nat.eq_zero_or_pos seconds with zero | positive
      · cases (deletes zero).symm.trans found
      · obtain ⟨old, held, same⟩ := Option.map_eq_some_iff.mp ((moves positive).symm.trans found)
        exact ⟨old, held, by rw [← same]⟩
    | del other =>
      obtain rfl := Option.some.inj written
      cases (execute_del executed).symm.trans found
    | set other value | setEx other value seconds | sadd other member => exact absurd written unstored
    | get other | scard other | smembers other | keys pattern => cases written
  · exact ⟨entry, ((execute_exact executed).2 key written).symm.trans found, rfl⟩

/-- Only a command that stores under a key brings it to life. -/
theorem execute_live_before {command : Command} {reply : command.Reply} {key : String}
    (executed : execute order store command = .ok (reply, after))
    (unstored : command.stores ≠ some key) (live : after.Live key) : store.Live key := by
  obtain ⟨entry, found⟩ := Store.live_iff.mp live
  obtain ⟨old, held, _⟩ := execute_value_before executed unstored found
  exact Store.live_iff.mpr ⟨old, held⟩

theorem execute_sadd {key member : String} {reply : Nat}
    (executed : execute order store (.sadd key member) = .ok (reply, after)) :
    after.members key = insert member (store.members key) ∧
      ((∀ entry, store.find? key = some entry → entry.deadline = none) →
        after.find? key = some ⟨.set (insert member (store.members key)), none⟩) := by
  simp only [execute] at executed
  split at executed
  · rename_i missing
    cases executed
    have placed : (store.put key ⟨.set {member}, none⟩).find? key = some ⟨.set {member}, none⟩ :=
      store.find?_put_self key rfl
    simp [Store.members, placed, missing]
  · rename_i members deadline found
    cases executed
    have placed : (store.put key ⟨.set (insert member members), deadline⟩).find? key =
        some ⟨.set (insert member members), deadline⟩ :=
      store.find?_put_self key (by simpa [Entry.aliveAt] using Store.aliveAt_of_find? found)
    refine ⟨by simp [Store.members, placed, found], fun timeless => ?_⟩
    have limit : deadline = none := timeless _ found
    subst deadline
    simp [Store.members, placed, found]
  · cases executed

theorem execute_scard {key : String} {reply : Nat}
    (executed : execute order store (.scard key) = .ok (reply, after)) :
    after = store ∧ reply = (store.members key).card := by
  simp only [execute] at executed
  split at executed <;> cases executed <;> simp_all [Store.members]

theorem execute_smembers {key : String} {reply : List String}
    (executed : execute order store (.smembers key) = .ok (reply, after)) :
    after = store ∧ reply.Nodup ∧ ∀ member, member ∈ reply ↔ member ∈ store.members key := by
  simp only [execute] at executed
  split at executed <;> cases executed <;>
    simp_all [Store.members, order.nodup, order.complete]

theorem execute_keys {pattern : String} {reply : List String}
    (executed : execute order store (.keys pattern) = .ok (reply, after)) :
    after = store ∧ reply.Nodup ∧
      ∀ key, key ∈ reply ↔ store.Live key ∧ globMatches pattern key = true := by
  cases executed
  refine ⟨rfl, order.nodup _, fun key => ?_⟩
  rw [order.complete, Finset.mem_filter, Store.mem_liveKeys]

end CkbDiscovery.Redis
