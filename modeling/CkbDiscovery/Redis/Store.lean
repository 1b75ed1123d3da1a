import Mathlib.Data.Finmap
import Mathlib.Data.Set.Insert
import Mathlib.Logic.Relation

/-! The keyspace of a Redis server: flat string keys, text and set values,
optional deadlines. An entry past its deadline answers no command. -/

namespace CkbDiscovery.Redis

inductive Value where
  | text (content : String)
  | set (members : Finset String)
  deriving DecidableEq

/-- Deadlines and the server clock count milliseconds. -/
structure Entry where
  value : Value
  deadline : Option Nat
  deriving DecidableEq

def Entry.aliveAt (entry : Entry) (now : Nat) : Bool :=
  entry.deadline.all fun deadline => decide (now ≤ deadline)

structure Store where
  now : Nat
  entries : Finmap fun _ : String => Entry

namespace Store

def empty (now : Nat) : Store := ⟨now, ∅⟩

/-- The live entry under a key. -/
def find? (store : Store) (key : String) : Option Entry :=
  (store.entries.lookup key).filter fun entry => entry.aliveAt store.now

def put (store : Store) (key : String) (entry : Entry) : Store :=
  { store with entries := store.entries.insert key entry }

def remove (store : Store) (key : String) : Store :=
  { store with entries := store.entries.erase key }

def Live (store : Store) (key : String) : Prop := (store.find? key).isSome

instance (store : Store) (key : String) : Decidable (store.Live key) := by
  unfold Live; infer_instance

def liveKeys (store : Store) : Finset String := store.entries.keys.filter store.Live

/-- The members of the set under a key; no key, no members. -/
def members (store : Store) (key : String) : Finset String :=
  match store.find? key with
  | some ⟨.set members, _⟩ => members
  | _ => ∅

/-- The text under a key. -/
def text? (store : Store) (key : String) : Option String :=
  match store.find? key with
  | some ⟨.text content, _⟩ => some content
  | _ => none

@[simp] theorem find?_empty (now : Nat) (key : String) : (empty now).find? key = none := rfl

theorem find?_put_self (store : Store) (key : String) {entry : Entry}
    (alive : entry.aliveAt store.now = true) : (store.put key entry).find? key = some entry := by
  simp [find?, put, alive]

theorem find?_put_of_ne (store : Store) (entry : Entry) {key other : String}
    (different : other ≠ key) : (store.put key entry).find? other = store.find? other := by
  simp [find?, put, Finmap.lookup_insert_of_ne _ different]

@[simp] theorem find?_remove_self (store : Store) (key : String) :
    (store.remove key).find? key = none := by
  simp [find?, remove]

theorem find?_remove_of_ne (store : Store) {key other : String} (different : other ≠ key) :
    (store.remove key).find? other = store.find? other := by
  simp [find?, remove, Finmap.lookup_erase_ne different]

theorem mem_liveKeys {store : Store} {key : String} : key ∈ store.liveKeys ↔ store.Live key := by
  rw [liveKeys, Finset.mem_filter, and_iff_right_iff_imp, Finmap.mem_keys, ← Finmap.lookup_isSome]
  intro live
  by_contra absent
  simp [Live, find?, Option.not_isSome_iff_eq_none.mp absent] at live

theorem live_iff {store : Store} {key : String} :
    store.Live key ↔ ∃ entry, store.find? key = some entry :=
  Option.isSome_iff_exists

theorem not_live_iff {store : Store} {key : String} : ¬ store.Live key ↔ store.find? key = none :=
  Option.not_isSome_iff_eq_none

theorem aliveAt_of_find? {store : Store} {key : String} {entry : Entry}
    (found : store.find? key = some entry) : entry.aliveAt store.now = true :=
  (Option.filter_eq_some_iff.mp found).2

theorem found_of_text? {store : Store} {key content : String}
    (read : store.text? key = some content) : ∃ entry, store.find? key = some entry := by
  cases found : store.find? key with
  | none => simp [text?, found] at read
  | some entry => exact ⟨entry, rfl⟩

/-- The server on its own: the clock runs, and any key that carries a deadline
may be gone at any moment. -/
inductive Drifts : Store → Store → Prop where
  | elapse (store : Store) (duration : Nat) :
      Drifts store { store with now := store.now + duration }
  | expire (found : find? store key = some entry) (timed : entry.deadline.isSome) :
      Drifts store (store.remove key)

/-- Outside the given keys nothing new appears, nothing is rewritten, and what
has no deadline stays. -/
structure FadesOutside (keys : Set String) (before after : Store) : Prop where
  clock : before.now ≤ after.now
  older : ∀ key ∉ keys, ∀ entry, after.find? key = some entry → before.find? key = some entry
  kept : ∀ key ∉ keys, ∀ entry, before.find? key = some entry → entry.deadline = none →
    after.find? key = some entry

/-- Nothing happened but the passing of time. -/
abbrev Fades : Store → Store → Prop := FadesOutside ∅

theorem FadesOutside.refl (keys : Set String) (store : Store) : FadesOutside keys store store :=
  ⟨Nat.le_refl _, fun _ _ _ found => found, fun _ _ _ found _ => found⟩

theorem FadesOutside.trans {keys : Set String} {first second third : Store}
    (earlier : FadesOutside keys first second) (later : FadesOutside keys second third) :
    FadesOutside keys first third where
  clock := earlier.clock.trans later.clock
  older key outside entry found :=
    earlier.older key outside entry (later.older key outside entry found)
  kept key outside entry found timeless :=
    later.kept key outside entry (earlier.kept key outside entry found timeless) timeless

theorem FadesOutside.mono {smaller larger : Set String} {before after : Store}
    (fades : FadesOutside smaller before after) (included : smaller ⊆ larger) :
    FadesOutside larger before after where
  clock := fades.clock
  older key outside := fades.older key fun inside => outside (included inside)
  kept key outside := fades.kept key fun inside => outside (included inside)

theorem FadesOutside.absent {keys : Set String} {before after : Store} {key : String}
    (fades : FadesOutside keys before after) (outside : key ∉ keys)
    (missing : before.find? key = none) : after.find? key = none := by
  cases found : after.find? key with
  | none => rfl
  | some entry => rw [fades.older key outside entry found] at missing; cases missing

theorem FadesOutside.live_before {keys : Set String} {before after : Store} {key : String}
    (fades : FadesOutside keys before after) (outside : key ∉ keys)
    (live : after.Live key) : before.Live key := by
  obtain ⟨entry, found⟩ := live_iff.mp live
  exact live_iff.mpr ⟨entry, fades.older key outside entry found⟩

theorem fades_elapse (store : Store) (duration : Nat) :
    Fades store { store with now := store.now + duration } where
  clock := Nat.le_add_right _ _
  older key _ entry found := by
    obtain ⟨stored, alive⟩ := Option.filter_eq_some_iff.mp found
    refine Option.filter_eq_some_iff.mpr ⟨stored, ?_⟩
    cases limit : entry.deadline with
    | none => simp [Entry.aliveAt, limit]
    | some deadline =>
      have within : store.now + duration ≤ deadline := by simpa [Entry.aliveAt, limit] using alive
      simp only [Entry.aliveAt, limit, Option.all_some, decide_eq_true_eq]
      omega
  kept key _ entry found timeless := by
    obtain ⟨stored, _⟩ := Option.filter_eq_some_iff.mp found
    exact Option.filter_eq_some_iff.mpr ⟨stored, by simp [Entry.aliveAt, timeless]⟩

theorem fades_expire {store : Store} {key : String} {entry : Entry}
    (found : store.find? key = some entry) (timed : entry.deadline.isSome) :
    Fades store (store.remove key) where
  clock := Nat.le_refl _
  older other _ kept located := by
    by_cases same : other = key
    · subst other
      simp at located
    · rwa [find?_remove_of_ne store same] at located
  kept other _ kept located timeless := by
    by_cases same : other = key
    · subst other
      obtain rfl := Option.some.inj (found.symm.trans located)
      simp [timeless] at timed
    · rwa [find?_remove_of_ne store same]

theorem Drifts.fades {before after : Store} (drifts : Drifts before after) :
    Fades before after := by
  cases drifts with
  | elapse duration => exact fades_elapse before duration
  | expire found timed => exact fades_expire found timed

end Store

end CkbDiscovery.Redis
