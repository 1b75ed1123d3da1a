import CkbDiscovery.Exposed.Pattern
import CkbDiscovery.Exposed.Version

/-! The partial operations of the query service: which requests come to one
that is not defined. -/

namespace CkbDiscovery.Exposed

open Effect Redis Marci Program

section

variable {Call : Type} {Reply : Call → Type} [Client Reply] {F64 : Type}

/-- What a request to `/peer` is answered with, by what is in the cache and how
many seconds ago that was put there. -/
def peerHandler (formats : Formats F64) (cache : List (Peer F64)) (age : Nat) (query : String) :
    Query Reply (List (Peer F64)) :=
  if cache.isEmpty || decide (30 < age) then getPeers formats (.ofString query) else pure cache

end

variable {F64 : Type} {formats : Formats F64} {order : Enumeration} {store : Store} {statuses : Statuses}
  {peerId : String}

/-- The handler on a store that stands still; without an answer it has panicked. -/
def peerHandlerOn (formats : Formats F64) (order : Enumeration) (store : Store)
    (cache : List (Peer F64)) (age : Nat) (query : String) :
    Option (Except RedisError (List (Peer F64))) :=
  (peerHandler formats cache age query : Query ReadReply _).run.evaluate (snapshot order store)

/-- The cache answers the request. -/
def CacheServes (cache : List (Peer F64)) (age : Nat) : Prop := cache ≠ [] ∧ age ≤ 30

/-- The ids that the scans leave of the status records. -/
def scannedStatuses (order : Enumeration) (store : Store) : Statuses where
  onlinePeers := keysToPeerIds (scanned order store "peer.online.*")
  online2Peers := keysToPeerIds (scanned order store "peer.online2.*")
  unknownPeers := keysToPeerIds (scanned order store "peer.unknown.*")

/-- Some scan has left the id. -/
def Statuses.lists (statuses : Statuses) (peerId : String) : Bool :=
  statuses.onlinePeers.contains peerId || statuses.online2Peers.contains peerId ||
    statuses.unknownPeers.contains peerId

/-- The record that the version of a listed peer is read from, if any, is a text. -/
def versionReadable (store : Store) (statuses : Statuses) (peerId : String) : Bool :=
  if statuses.onlinePeers.contains peerId then
    (store.text? (KeyFormat.onlinePeer.key peerId)).isSome
  else if statuses.online2Peers.contains peerId then
    (store.text? (KeyFormat.online2Peer.key peerId)).isSome
  else true

/-- The entry of a listed peer cannot be made. -/
def obstructs (formats : Formats F64) (store : Store) (statuses : Statuses) (peerId : String) : Bool :=
  statuses.lists peerId &&
    !(versionReadable store statuses peerId && decide (Dated formats store peerId))

/-- The first peer whose entry cannot be made, if any, lacks a version rather
than a date of the calendar. -/
def DatesInReach (formats : Formats F64) (order : Enumeration) (store : Store)
    (network : CKBNetworkType) : Prop :=
  ∀ pattern, indexPattern network = some pattern → ∀ peerId,
    (scannedIds order store pattern).find? (obstructs formats store (scannedStatuses order store)) =
      some peerId → versionReadable store (scannedStatuses order store) peerId = false

theorem evaluate_getString_missing {key : String} (missing : store.text? key = none) :
    ∃ error, (Client.getString key : Program ReadReply _).evaluate (snapshot order store) =
      some (.error error) := by
  have sent : (Client.send (.get key) : Program ReadReply _).evaluate (snapshot order store) =
      some (snapshot order store (.get key)) := rfl
  rw [Client.getString, evaluate_bind, sent, snapshot_get]
  rcases found : store.find? key with _ | ⟨_ | _, _⟩
  · exact ⟨_, rfl⟩
  · rw [Store.text?, found] at missing
    cases missing
  · exact ⟨_, rfl⟩

/-- Reading the version gives a text or an error, and never panics. -/
theorem evaluate_listedVersion_cases (order : Enumeration) (store : Store) (statuses : Statuses)
    (peerId : String) :
    (versionReadable store statuses peerId = true ∧ ∃ version,
      (listedVersion statuses peerId : Query ReadReply _).run.evaluate (snapshot order store) =
        some (.ok version)) ∨
    (versionReadable store statuses peerId = false ∧ ∃ error,
      (listedVersion statuses peerId : Query ReadReply _).run.evaluate (snapshot order store) =
        some (.error error)) := by
  have read (key : String) : ((store.text? key).isSome = true ∧ ∃ version,
      (Client.getString key : Program ReadReply _).evaluate (snapshot order store) = some (.ok version)) ∨
    ((store.text? key).isSome = false ∧ ∃ error,
      (Client.getString key : Program ReadReply _).evaluate (snapshot order store) = some (.error error)) := by
    cases stored : store.text? key with
    | none => exact .inr ⟨rfl, evaluate_getString_missing stored⟩
    | some version => exact .inl ⟨rfl, version, evaluate_getString order store stored⟩
  unfold listedVersion versionReadable
  split
  · exact read _
  · split
    · exact read _
    · exact .inl ⟨rfl, "", rfl⟩

/-- The loop panics exactly over the date of the first peer whose entry cannot be made. -/
theorem evaluate_listPeers_none (index : Nat) (peerIds : List String) :
    (listPeers formats statuses index peerIds : Query ReadReply _).run.evaluate (snapshot order store) =
      none ↔
    ∃ peerId, peerIds.find? (obstructs formats store statuses) = some peerId ∧
      versionReadable store statuses peerId = true := by
  induction peerIds generalizing index with
  | nil => simp [listPeers, ExceptT.run_pure]
  | cons peerId rest inductionHypothesis =>
    have passed : (!statuses.onlinePeers.contains peerId && !statuses.online2Peers.contains peerId &&
        !statuses.unknownPeers.contains peerId) = !statuses.lists peerId := by
      simp [Statuses.lists, Bool.not_or]
    rw [listPeers, passed]
    cases listed : statuses.lists peerId with
    | false =>
      rw [Bool.not_false, if_pos rfl, inductionHypothesis, List.find?_cons_of_neg (by simp [obstructs, listed])]
    | true =>
      rw [Bool.not_true, if_neg Bool.false_ne_true]
      rcases evaluate_listedVersion_cases order store statuses peerId with
        ⟨readable, version, read⟩ | ⟨unreadable, error, read⟩
      · rw [evaluate_run_ok read, evaluate_run_bind, evaluate_run_lift, evaluate_makePeer]
        by_cases dated : Dated formats store peerId
        · rw [List.find?_cons_of_neg (by simp [obstructs, listed, readable, dated]), if_pos dated]
          rw [Option.map_some, Option.bind_some]
          dsimp only
          rw [evaluate_run_bind, ← inductionHypothesis (index + 1)]
          rcases (listPeers formats statuses (index + 1) rest : Query ReadReply _).run.evaluate
            (snapshot order store) with _ | _ | _
          · simp
          · simp
          · simp [ExceptT.run_pure]
        · rw [List.find?_cons_of_pos (by simp [obstructs, listed, readable, dated]), if_neg dated]
          simp [readable]
      · rw [evaluate_run_bind, read, List.find?_cons_of_pos (by simp [obstructs, listed, unreadable])]
        simp [unreadable]

/-- `get_peers` panics on the network it does not know, and over a date. -/
theorem evaluate_getPeers_none (formats : Formats F64) (order : Enumeration) (store : Store)
    (network : CKBNetworkType) :
    (getPeers formats network : Query ReadReply _).run.evaluate (snapshot order store) = none ↔
      ¬ (network ≠ .dev ∧ DatesInReach formats order store network) := by
  have named : (getPeers formats network : Query ReadReply _).run.evaluate (snapshot order store) = none ↔
      (getLabelledPeers formats network : Query ReadReply _).run.evaluate (snapshot order store) =
        none := by
    rw [getPeers, evaluate_run_bind]
    rcases (getLabelledPeers formats network : Query ReadReply _).run.evaluate
      (snapshot order store) with _ | _ | _
    · simp
    · simp
    · simp [ExceptT.run_pure]
  rw [named, getLabelledPeers]
  cases indexed : indexPattern network with
  | none =>
    obtain rfl : network = .dev := by
      cases network with
      | dev => rfl
      | _ => cases indexed
    simp only [ne_eq, not_true, false_and, not_false_eq_true, iff_true]
    rfl
  | some pattern =>
    have supported : network ≠ .dev := by
      rintro rfl
      cases indexed
    have scan : (ExceptT.mk (Client.keys pattern) : Query ReadReply _).run.evaluate
        (snapshot order store) = some (.ok (scanned order store pattern)) := rfl
    have statuses : (scanStatuses : Query ReadReply _).run.evaluate (snapshot order store) =
        some (.ok (scannedStatuses order store)) := rfl
    dsimp only
    rw [evaluate_run_ok scan, reachableKeysToPeerIds_total indexed]
    dsimp only
    rw [evaluate_run_ok statuses, evaluate_listPeers_none, DatesInReach]
    constructor
    · rintro ⟨peerId, first, readable⟩ ⟨_, inReach⟩
      rw [inReach pattern indexed peerId first] at readable
      cases readable
    · intro panics
      by_contra none
      refine panics ⟨supported, fun other same peerId first => ?_⟩
      obtain rfl := Option.some.inj (indexed.symm.trans same)
      rw [← Bool.not_eq_true]
      exact fun readable => none ⟨peerId, first, readable⟩

/-- A version is never cut at a missing group. A request to `/peer` is answered
exactly if the cache serves it, or its network is known and no date of the
calendar is missing in reach; one to `/peer_status` exactly if no date of the
peer it finds is missing. -/
theorem requests_answered_iff (formats : Formats F64) (order : Enumeration) (store : Store)
    (cache : List (Peer F64)) (age : Nat) (query peerId : String) :
    ((peerHandlerOn formats order store cache age query).isSome ∧
        (peerInMapOn formats order store peerId).isSome ∧ ∀ version, (capturedVersion version).isSome) ↔
      (CacheServes cache age ∨ CKBNetworkType.ofString query ≠ .dev ∧
        DatesInReach formats order store (.ofString query)) ∧
      ((askedFormat store peerId).isSome → Dated formats store peerId) := by
  have captured : ∀ version, (capturedVersion version).isSome := by
    intro version
    rw [capturedVersion_eq]
    rfl
  have listing : (peerHandlerOn formats order store cache age query).isSome ↔
      CacheServes cache age ∨ CKBNetworkType.ofString query ≠ .dev ∧
        DatesInReach formats order store (.ofString query) := by
    rw [peerHandlerOn, peerHandler, CacheServes]
    split
    · rename_i stale
      have unserved : ¬ (cache ≠ [] ∧ age ≤ 30) := by
        rintro ⟨filled, young⟩
        simp [filled] at stale
        omega
      rw [Option.isSome_iff_ne_none, ne_eq, evaluate_getPeers_none, not_not]
      simp only [unserved, false_or]
    · rename_i served
      have serves : cache ≠ [] ∧ age ≤ 30 := by simpa using served
      exact iff_of_true rfl (.inl serves)
  have status : (peerInMapOn formats order store peerId).isSome ↔
      ((askedFormat store peerId).isSome → Dated formats store peerId) := by
    rw [Option.isSome_iff_ne_none, ne_eq, peerInMapOn_none, not_and, not_not]
  rw [listing, status]
  exact ⟨fun answered => ⟨answered.1, answered.2.1⟩, fun held => ⟨held.1, held.2, captured⟩⟩

/-- With nothing in the cache, a request for the development network panics
where one for the main network is answered. -/
theorem development_panics : ∃ turns after,
    MarciRun sampleConfig .unary (.initial 0) turns after ∧
      (peerHandlerOn sampleFormats .sorted after.redis [] 0 "mirana").isSome = true ∧
      (peerHandlerOn sampleFormats .sorted after.redis [] 0 "dev").isSome = false := by
  have played : (play sampleConfig .unary sampleSurroundings advertisedScript (.initial 0)).any
      fun result => decide (
        (peerHandlerOn sampleFormats .sorted result.2.redis [] 0 "mirana").isSome = true ∧
        (peerHandlerOn sampleFormats .sorted result.2.redis [] 0 "dev").isSome = false) := by
    decide
  exact play_reaches played

end CkbDiscovery.Exposed
