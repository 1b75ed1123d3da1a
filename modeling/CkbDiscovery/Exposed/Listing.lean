import CkbDiscovery.Exposed.Peers
import CkbDiscovery.Redis.Snapshot

/-! What the readers answer on a store that stands still. -/

namespace CkbDiscovery.Exposed

open Effect Redis Marci Program

variable {F64 : Type} (formats : Formats F64) (order : Enumeration) (store : Store)

/-- The second at which the peer was last seen, as the readers understand it. -/
def seenTimestamp (peerId : String) : UInt64 :=
  ((store.text? (KeyFormat.peerSeen.key peerId)).bind formats.u64Value).getD 0

def storedDetails (peerId : String) : PeerDetails F64 :=
  let latLon := ((store.text? (KeyFormat.peerPos.key peerId)).map splitComma).getD []
  { country := store.text? (KeyFormat.peerCountry.key peerId)
    city := store.text? (KeyFormat.peerCity.key peerId)
    latitude := latLon[0]?.bind formats.f64Value
    longitude := latLon[1]?.bind formats.f64Value
    full := (store.text? (KeyFormat.peerFull.key peerId)).bind formats.boolValue
    timestamp := seenTimestamp formats store peerId }

def storedPeer (id : Int32) (version versionShort peerId : String) : Peer F64 :=
  let details := storedDetails formats store peerId
  { id
    version
    versionShort
    lastSeen := some details.timestamp.toNat
    country := details.country
    city := details.city
    latitude := details.latitude
    longitude := details.longitude
    nodeType := nodeTypeFromFull details.full }

/-- The version shown for a peer: the first-hand record before the external one. -/
def reportedVersion (peerId : String) : String :=
  if store.Live (KeyFormat.onlinePeer.key peerId) then
    (store.text? (KeyFormat.onlinePeer.key peerId)).getD ""
  else if store.Live (KeyFormat.online2Peer.key peerId) then
    (store.text? (KeyFormat.online2Peer.key peerId)).getD ""
  else ""

def reportedVersionShort (peerId : String) : String :=
  if store.Live (KeyFormat.onlinePeer.key peerId) ∨ store.Live (KeyFormat.online2Peer.key peerId) then
    versionShort (reportedVersion store peerId)
  else "Unknown"

def storedEntry (index : Nat) (peerId : String) : Peer F64 :=
  storedPeer formats store (Int32.ofNat index) (reportedVersion store peerId)
    (reportedVersionShort store peerId) peerId

/-- A store on which the listing meets no surprise. -/
structure Readable : Prop where
  online : ∀ peerId, store.Live (KeyFormat.onlinePeer.key peerId) →
    ∃ version, store.text? (KeyFormat.onlinePeer.key peerId) = some version
  online2 : ∀ peerId, store.Live (KeyFormat.online2Peer.key peerId) →
    ∃ version, store.text? (KeyFormat.online2Peer.key peerId) = some version
  dated : ∀ peerId, (seenTimestamp formats store peerId).toNat ≤ formats.lastSecond
  dotless : ∀ format : KeyFormat, ∀ peerId, store.Live (format.key peerId) → '.' ∉ peerId.toList

/-- The part of it that Marci sees to: status records are texts under ids
without dots. -/
structure Legible : Prop where
  online : ∀ peerId, store.Live (KeyFormat.onlinePeer.key peerId) →
    ∃ version, store.text? (KeyFormat.onlinePeer.key peerId) = some version
  online2 : ∀ peerId, store.Live (KeyFormat.online2Peer.key peerId) →
    ∃ version, store.text? (KeyFormat.online2Peer.key peerId) = some version
  dotless : ∀ format : KeyFormat, ∀ peerId, store.Live (format.key peerId) → '.' ∉ peerId.toList

/-- The calendar knows the second at which the peer was last seen. -/
def Dated (peerId : String) : Prop :=
  (seenTimestamp formats store peerId).toNat ≤ formats.lastSecond

instance : DecidablePred (Dated formats store) := fun _ => inferInstanceAs (Decidable (_ ≤ _))

theorem Readable.legible (readable : Readable formats store) : Legible store :=
  ⟨readable.online, readable.online2, readable.dotless⟩

theorem evaluate_getOptional (convert : String → Option α) (key : String) :
    (getOptional convert key : Program ReadReply _).evaluate (snapshot order store) =
      some ((store.text? key).bind convert) := by
  have sent : (Client.send (.get key) : Program ReadReply _).evaluate (snapshot order store) =
      some (snapshot order store (.get key)) := rfl
  rw [getOptional, evaluate_bind, sent, snapshot_get, Store.text?]
  rcases store.find? key with _ | ⟨_ | _, _⟩ <;> rfl

theorem evaluate_getPeerInfo (peerId : String) :
    (getPeerInfo formats peerId : Program ReadReply _).evaluate (snapshot order store) =
      some (storedDetails formats store peerId) := by
  simp only [getPeerInfo, evaluate_bind, evaluate_getOptional, Option.bind_some, pure_eq_done,
    evaluate_done, Option.bind_fun_some]
  rfl

/-- An entry is made unless its date is past the calendar, which is a panic. -/
theorem evaluate_makePeer (id : Int32) (version versionShort peerId : String) :
    (makePeer formats id version versionShort peerId : Program ReadReply _).evaluate
      (snapshot order store) = if Dated formats store peerId then
        some (storedPeer formats store id version versionShort peerId) else none := by
  rw [makePeer, evaluate_bind, evaluate_getPeerInfo, Option.bind_some, evaluate_bind]
  by_cases dated : Dated formats store peerId
  · have date : (dateTime formats (storedDetails formats store peerId).timestamp :
        Program ReadReply _) = .done (storedDetails formats store peerId).timestamp.toNat :=
      if_pos dated
    rw [date, if_pos dated]
    rfl
  · have panic : (dateTime formats (storedDetails formats store peerId).timestamp :
        Program ReadReply _) = .stop := if_neg dated
    rw [panic, if_neg dated]
    rfl

/-- The keys a scan returns. -/
def scanned (pattern : String) : List String :=
  order.list (store.liveKeys.filter fun key => globMatches pattern key)

variable {order store}

theorem mem_scanned {pattern key : String} :
    key ∈ scanned order store pattern ↔ store.Live key ∧ globMatches pattern key = true := by
  rw [scanned, order.complete, Finset.mem_filter, Store.mem_liveKeys]

/-- The ids behind a status scan are those of the peers with a live record. -/
theorem mem_keysToPeerIds (stem : String) {format : KeyFormat} {pattern : String}
    (spelled : ∀ peerId, format.key peerId = stem ++ "." ++ peerId)
    (scan : pattern = stem ++ "." ++ "*" ++ "") (plain : PlainText (stem ++ "."))
    (dotless : ∀ peerId, store.Live (format.key peerId) → '.' ∉ peerId.toList) (peerId : String) :
    peerId ∈ keysToPeerIds (scanned order store pattern) ↔ store.Live (format.key peerId) := by
  have last : ∀ other, store.Live (format.key other) →
      ((rsplitOnceDot (format.key other)).map Prod.snd).getD "" = other := by
    intro other live
    rw [spelled, rsplitOnceDot_append stem (dotless other live), Option.getD_some]
  have selects : ∀ key, globMatches pattern key = true ↔ ∃ other, key = format.key other := by
    intro key
    rw [scan, globMatches_star _ _ plain (by decide)]
    simp [spelled]
  rw [keysToPeerIds, List.mem_map]
  constructor
  · intro given
    obtain ⟨key, present, same⟩ := given
    obtain ⟨live, selected⟩ := mem_scanned.mp present
    obtain ⟨other, rfl⟩ := (selects key).mp selected
    rw [last other live] at same
    rwa [← same]
  · intro live
    exact ⟨_, mem_scanned.mpr ⟨live, (selects _).mpr ⟨peerId, rfl⟩⟩, last peerId live⟩

/-- The scans found the live status records. -/
structure Statuses.Faithful (statuses : Statuses) (store : Store) : Prop where
  online : ∀ peerId, peerId ∈ statuses.onlinePeers ↔
    store.Live (KeyFormat.onlinePeer.key peerId)
  online2 : ∀ peerId, peerId ∈ statuses.online2Peers ↔
    store.Live (KeyFormat.online2Peer.key peerId)
  unknown : ∀ peerId, peerId ∈ statuses.unknownPeers ↔
    store.Live (KeyFormat.unknownPeer.key peerId)

variable {formats}

theorem evaluate_scanStatuses (order : Enumeration) (legible : Legible store) :
    ∃ statuses : Statuses, statuses.Faithful store ∧
      (scanStatuses : Query ReadReply _).run.evaluate (snapshot order store) =
        some (.ok statuses) := by
  refine ⟨⟨keysToPeerIds (scanned order store "peer.online.*"),
    keysToPeerIds (scanned order store "peer.online2.*"),
    keysToPeerIds (scanned order store "peer.unknown.*")⟩, ?_, rfl⟩
  constructor
  · apply mem_keysToPeerIds "peer.online" (fun _ => ?_) (by decide) (by decide) (legible.dotless _)
    simp [KeyFormat.key, KeyFormat.affix, Affix.key]
  · apply mem_keysToPeerIds "peer.online2" (fun _ => ?_) (by decide) (by decide) (legible.dotless _)
    simp [KeyFormat.key, KeyFormat.affix, Affix.key]
  · apply mem_keysToPeerIds "peer.unknown" (fun _ => ?_) (by decide) (by decide) (legible.dotless _)
    simp [KeyFormat.key, KeyFormat.affix, Affix.key]

theorem indexKey_spelled (network : CKBNetworkType) (peerId : String) :
    (KeyFormat.peerNetworkQuick network).key peerId =
      "network.peer" ++ "." ++ peerId ++ "." ++ toLowercase network.intoStr := by
  cases network <;> simp [KeyFormat.key, KeyFormat.affix, Affix.key, String.append_assoc]

theorem indexed_id {network : CKBNetworkType} {peerId : String} (dotless : '.' ∉ peerId.toList) :
    (rsplitDot ((KeyFormat.peerNetworkQuick network).key peerId))[1]? = some peerId := by
  have plain : '.' ∉ (toLowercase network.intoStr).toList := by cases network <;> decide
  rw [indexKey_spelled, rsplitDot_append _ plain, rsplitDot_append _ dotless]
  rfl

theorem index_scan {network : CKBNetworkType} {pattern : String}
    (indexed : indexPattern network = some pattern) (key : String) :
    globMatches pattern key = true ↔
      ∃ peerId, key = (KeyFormat.peerNetworkQuick network).key peerId := by
  cases network with
  | mirana =>
    obtain rfl := Option.some.inj indexed
    exact globMatches_star "network.peer." ".mirana" (by decide) (by decide) key
  | pudge =>
    obtain rfl := Option.some.inj indexed
    exact globMatches_star "network.peer." ".pudge" (by decide) (by decide) key
  | dev => cases indexed

/-- A key that the scan of an index selects has the two dots that are cut at. -/
theorem indexed_pieces {network : CKBNetworkType} {pattern key : String}
    (indexed : indexPattern network = some pattern) (selected : globMatches pattern key = true) :
    ((rsplitDot key)[1]?).isSome := by
  obtain ⟨peerId, rfl⟩ := (index_scan indexed key).mp selected
  have plain : '.' ∉ (toLowercase network.intoStr).toList := by cases network <;> decide
  rw [indexKey_spelled, rsplitDot_append _ plain, List.getElem?_cons_succ]
  cases pieces : rsplitDot ("network.peer" ++ "." ++ peerId) with
  | nil => exact absurd pieces (rsplitDot_ne_nil _)
  | cons piece rest => rfl

theorem indexPattern_of_ne_dev {network : CKBNetworkType} (supported : network ≠ .dev) :
    ∃ pattern, indexPattern network = some pattern := by
  cases network with
  | mirana => exact ⟨_, rfl⟩
  | pudge => exact ⟨_, rfl⟩
  | dev => exact absurd rfl supported

theorem mapM_eq_some_map {f : α → Option β} {g : α → β} {items : List α}
    (each : ∀ item ∈ items, f item = some (g item)) : items.mapM f = some (items.map g) := by
  induction items with
  | nil => rfl
  | cons item rest inductionHypothesis =>
    have others := inductionHypothesis fun other member => each other (List.mem_cons_of_mem _ member)
    simp [List.mapM_cons, each item List.mem_cons_self, others]

/-- The ids that the scan leaves of the index of a network. -/
def scannedIds (order : Enumeration) (store : Store) (pattern : String) : List String :=
  (scanned order store pattern).map fun key => ((rsplitDot key)[1]?).getD ""

theorem reachableKeysToPeerIds_total {network : CKBNetworkType} {pattern : String}
    (indexed : indexPattern network = some pattern) :
    reachableKeysToPeerIds (scanned order store pattern) = some (scannedIds order store pattern) := by
  apply mapM_eq_some_map
  intro key present
  have pieces := indexed_pieces indexed (mem_scanned.mp present).2
  obtain ⟨piece, found⟩ := Option.isSome_iff_exists.mp pieces
  rw [found, Option.getD_some]

/-- The ids behind the index of a network. -/
theorem reachableKeysToPeerIds_scanned (order : Enumeration) {network : CKBNetworkType} {pattern : String}
    (indexed : indexPattern network = some pattern)
    (dotless : ∀ peerId, store.Live ((KeyFormat.peerNetworkQuick network).key peerId) →
      '.' ∉ peerId.toList) :
    ∃ peerIds, reachableKeysToPeerIds (scanned order store pattern) = some peerIds ∧
      peerIds.Nodup ∧ ∀ peerId, peerId ∈ peerIds ↔
        store.Live ((KeyFormat.peerNetworkQuick network).key peerId) := by
  have spelled : ∀ key ∈ scanned order store pattern, ∃ peerId,
      key = (KeyFormat.peerNetworkQuick network).key peerId ∧ store.Live key ∧
        (rsplitDot key)[1]? = some peerId := by
    intro key present
    obtain ⟨live, selected⟩ := mem_scanned.mp present
    obtain ⟨peerId, rfl⟩ := (index_scan indexed key).mp selected
    exact ⟨peerId, rfl, live, indexed_id (dotless peerId live)⟩
  refine ⟨scannedIds order store pattern, reachableKeysToPeerIds_total indexed, ?_, ?_⟩
  · apply (order.nodup _).map_on
    intro first firstPresent second secondPresent same
    obtain ⟨left, rfl, _, leftId⟩ := spelled first firstPresent
    obtain ⟨right, rfl, _, rightId⟩ := spelled second secondPresent
    rw [leftId, rightId, Option.getD_some, Option.getD_some] at same
    rw [same]
  · intro peerId
    rw [scannedIds, List.mem_map]
    constructor
    · intro given
      obtain ⟨key, present, same⟩ := given
      obtain ⟨other, rfl, live, id⟩ := spelled key present
      rw [id, Option.getD_some] at same
      rwa [← same]
    · intro live
      refine ⟨_, mem_scanned.mpr ⟨live, (index_scan indexed _).mpr ⟨peerId, rfl⟩⟩, ?_⟩
      rw [indexed_id (dotless peerId live), Option.getD_some]

/-- The peers an index entry is listed for. -/
def Shown (store : Store) (peerId : String) : Prop :=
  store.Live (KeyFormat.onlinePeer.key peerId) ∨ store.Live (KeyFormat.online2Peer.key peerId) ∨
    store.Live (KeyFormat.unknownPeer.key peerId)

instance (store : Store) : DecidablePred (Shown store) :=
  fun _ => inferInstanceAs (Decidable (_ ∨ _ ∨ _))

theorem evaluate_listedVersion (legible : Legible store) {statuses : Statuses}
    (faithful : statuses.Faithful store) (peerId : String) :
    (listedVersion statuses peerId : Query ReadReply _).run.evaluate (snapshot order store) =
      some (.ok (reportedVersion store peerId)) := by
  by_cases online : store.Live (KeyFormat.onlinePeer.key peerId)
  · obtain ⟨version, stored⟩ := legible.online peerId online
    have listed := (faithful.online peerId).mpr online
    simp only [listedVersion, List.contains_eq_mem, listed, decide_true, if_true, ExceptT.run_mk,
      evaluate_getString order store stored, reportedVersion, online, stored, Option.getD_some]
  · have unlisted := (faithful.online peerId).not.mpr online
    by_cases online2 : store.Live (KeyFormat.online2Peer.key peerId)
    · obtain ⟨version, stored⟩ := legible.online2 peerId online2
      have listed := (faithful.online2 peerId).mpr online2
      simp only [listedVersion, List.contains_eq_mem, unlisted, listed, decide_true, decide_false,
        if_true, Bool.false_eq_true, if_false, ExceptT.run_mk, evaluate_getString order store stored,
        reportedVersion, online, online2, stored, Option.getD_some]
    · have unlisted2 := (faithful.online2 peerId).not.mpr online2
      simp only [listedVersion, List.contains_eq_mem, unlisted, unlisted2, decide_false,
        Bool.false_eq_true, if_false, reportedVersion, online, online2]
      rfl

theorem listedVersionShort_eq {statuses : Statuses} (faithful : statuses.Faithful store)
    (peerId : String) :
    listedVersionShort statuses peerId (reportedVersion store peerId) =
      reportedVersionShort store peerId := by
  by_cases online : store.Live (KeyFormat.onlinePeer.key peerId) <;>
    by_cases online2 : store.Live (KeyFormat.online2Peer.key peerId) <;>
    simp [listedVersionShort, reportedVersionShort, List.contains_eq_mem, faithful.online,
      faithful.online2, online, online2]

/-- The entries of the shown peers, numbered by their places in the index. -/
def storedListing (formats : Formats F64) (store : Store) : Nat → List String → List (String × Peer F64)
  | _, [] => []
  | index, peerId :: rest =>
    if Shown store peerId then
      (peerId, storedEntry formats store index peerId) :: storedListing formats store (index + 1) rest
    else storedListing formats store (index + 1) rest

/-- The loop lists the shown peers of the index, in its order, unless it panics
over one of their dates. -/
theorem evaluate_listPeers (order : Enumeration) (legible : Legible store) {statuses : Statuses}
    (faithful : statuses.Faithful store) (index : Nat) (peerIds : List String) :
    (listPeers formats statuses index peerIds : Query ReadReply _).run.evaluate
        (snapshot order store) =
      if ∀ peerId ∈ peerIds, Shown store peerId → Dated formats store peerId then
        some (.ok (storedListing formats store index peerIds)) else none := by
  induction peerIds generalizing index with
  | nil => simp [storedListing, listPeers, ExceptT.run_pure]
  | cons peerId rest inductionHypothesis =>
    have decided : (!statuses.onlinePeers.contains peerId && !statuses.online2Peers.contains peerId &&
        !statuses.unknownPeers.contains peerId) = !decide (Shown store peerId) := by
      rw [Bool.eq_iff_iff, Bool.not_eq_true', decide_eq_false_iff_not, Shown]
      simp [List.contains_eq_mem, faithful.online, faithful.online2, faithful.unknown, and_assoc]
    by_cases shown : Shown store peerId
    · have made := evaluate_makePeer formats order store (Int32.ofNat index) (reportedVersion store peerId)
        (reportedVersionShort store peerId) peerId
      rw [listPeers, decided, if_neg (by simp [shown]),
        evaluate_run_ok (evaluate_listedVersion legible faithful peerId),
        listedVersionShort_eq faithful, evaluate_run_bind, evaluate_run_lift, made]
      by_cases dated : Dated formats store peerId
      · rw [if_pos dated, Option.map_some, Option.bind_some]
        dsimp only
        rw [evaluate_run_bind, inductionHypothesis (index + 1)]
        by_cases others : ∀ other ∈ rest, Shown store other → Dated formats store other
        · rw [if_pos others, if_pos (by simpa [shown, dated] using others), storedListing, if_pos shown]
          rfl
        · rw [if_neg others, if_neg (by simpa [shown, dated] using others)]
          rfl
      · rw [if_neg dated, if_neg fun each => dated (each peerId List.mem_cons_self shown)]
        rfl
    · rw [listPeers, decided, if_pos (by simp [shown]), inductionHypothesis]
      simp [shown, storedListing]

/-- `get_peers` on a store that stands still, with the id of each entry. -/
def getPeersOn (formats : Formats F64) (order : Enumeration) (store : Store)
    (network : CKBNetworkType) : Option (Except RedisError (List (String × Peer F64))) :=
  (getLabelledPeers formats network : Query ReadReply _).run.evaluate (snapshot order store)

theorem listPeers_ids {answer : (command : Command) → ReadReply command} {statuses : Statuses}
    {index : Nat} {peerIds : List String} {peers : List (String × Peer F64)}
    (listed : (listPeers formats statuses index peerIds : Query ReadReply _).run.evaluate answer =
      some (.ok peers)) : peers.map Prod.fst ⊆ peerIds := by
  induction peerIds generalizing index peers with
  | nil =>
    cases listed
    exact List.nil_subset _
  | cons peerId rest inductionHypothesis =>
    rw [listPeers] at listed
    split at listed
    · exact List.subset_cons_of_subset _ (inductionHypothesis listed)
    · obtain ⟨version, _, listed⟩ := evaluate_run_split listed
      obtain ⟨peer, _, listed⟩ := evaluate_run_split listed
      obtain ⟨others, evaluated, listed⟩ := evaluate_run_split listed
      cases listed
      exact List.cons_subset_cons _ (inductionHypothesis evaluated)

/-- Whatever a listing shows is what the last dot leaves of an id in the index of its network. -/
theorem getPeersOn_named {network : CKBNetworkType} {peers : List (String × Peer F64)}
    (listed : getPeersOn formats order store network = some (.ok peers)) {peerId : String}
    (member : peerId ∈ peers.map Prod.fst) :
    ∃ subject, store.Live ((KeyFormat.peerNetworkQuick network).key subject) ∧
      (subject = peerId ∨ ∃ stem, subject = stem ++ "." ++ peerId) := by
  rw [getPeersOn, getLabelledPeers] at listed
  split at listed
  · cases listed
  · rename_i pattern indexed
    obtain ⟨keys, scan, listed⟩ := evaluate_run_split listed
    obtain rfl : scanned order store pattern = keys := by
      simpa [scanned] using scan
    rw [reachableKeysToPeerIds_total indexed] at listed
    obtain ⟨statuses, _, listed⟩ := evaluate_run_split listed
    obtain ⟨key, present, named⟩ := List.mem_map.mp (listPeers_ids listed member)
    obtain ⟨live, selected⟩ := mem_scanned.mp present
    obtain ⟨subject, rfl⟩ := (index_scan indexed key).mp selected
    obtain ⟨piece, found⟩ := Option.isSome_iff_exists.mp (indexed_pieces indexed selected)
    rw [found, Option.getD_some] at named
    subst named
    have plain : '.' ∉ (toLowercase network.intoStr).toList := by cases network <;> decide
    rw [indexKey_spelled, rsplitDot_append _ plain, List.getElem?_cons_succ, ← List.head?_eq_getElem?] at found
    exact ⟨subject, live, rsplitDot_head found⟩

/-- Whatever a listing shows is in the index of its network. -/
theorem getPeersOn_indexed {network : CKBNetworkType} {peers : List (String × Peer F64)}
    (dotless : ∀ peerId, store.Live ((KeyFormat.peerNetworkQuick network).key peerId) →
      '.' ∉ peerId.toList)
    (listed : getPeersOn formats order store network = some (.ok peers)) {peerId : String}
    (member : peerId ∈ peers.map Prod.fst) :
    store.Live ((KeyFormat.peerNetworkQuick network).key peerId) := by
  obtain ⟨subject, live, same | ⟨stem, longer⟩⟩ := getPeersOn_named listed member
  · exact same ▸ live
  · exact absurd (by simp [longer]) (dotless subject live)

/-- The ids of the entries of a listing. -/
def listedIds (formats : Formats F64) (order : Enumeration) (store : Store)
    (network : CKBNetworkType) : Option (Except RedisError (List String)) :=
  (getPeersOn formats order store network).map (Except.map (List.map Prod.fst))

theorem storedListing_ids (formats : Formats F64) (store : Store) (index : Nat) (peerIds : List String) :
    (storedListing formats store index peerIds).map Prod.fst =
      peerIds.filter fun peerId => Shown store peerId := by
  induction peerIds generalizing index with
  | nil => rfl
  | cons peerId rest inductionHypothesis =>
    by_cases shown : Shown store peerId <;> simp [storedListing, shown, inductionHypothesis]

/-- Each entry is that of its peer, under a number from the range of the index. -/
theorem storedListing_entries {index : Nat} {peerIds : List String} {entry : String × Peer F64}
    (member : entry ∈ storedListing formats store index peerIds) :
    ∃ position, index ≤ position ∧ position < index + peerIds.length ∧
      entry.2 = storedEntry formats store position entry.1 := by
  induction peerIds generalizing index with
  | nil => cases member
  | cons peerId rest inductionHypothesis =>
    have later : entry ∈ storedListing formats store (index + 1) rest →
        ∃ position, index ≤ position ∧ position < index + (peerId :: rest).length ∧
          entry.2 = storedEntry formats store position entry.1 := by
      intro further
      obtain ⟨position, first, last, same⟩ := inductionHypothesis further
      exact ⟨position, by omega, by rw [List.length_cons]; omega, same⟩
    by_cases shown : Shown store peerId
    · rw [storedListing, if_pos shown] at member
      rcases List.mem_cons.mp member with same | further
      · exact ⟨index, Nat.le_refl _, by rw [List.length_cons]; omega, by rw [same]⟩
      · exact later further
    · rw [storedListing, if_neg shown] at member
      exact later member

/-- On a legible store the listing succeeds unless it panics over a date. -/
theorem getPeersOn_legible (formats : Formats F64) (order : Enumeration) (legible : Legible store)
    {network : CKBNetworkType} (supported : network ≠ .dev) :
    ∃ peerIds : List String, peerIds.Nodup ∧
      (∀ peerId, peerId ∈ peerIds ↔ store.Live ((KeyFormat.peerNetworkQuick network).key peerId)) ∧
      getPeersOn formats order store network =
        if ∀ peerId ∈ peerIds, Shown store peerId → Dated formats store peerId then
          some (.ok (storedListing formats store 0 peerIds)) else none := by
  obtain ⟨pattern, indexed⟩ := indexPattern_of_ne_dev supported
  obtain ⟨peerIds, taken, distinct, complete⟩ :=
    reachableKeysToPeerIds_scanned order indexed (legible.dotless _)
  obtain ⟨statuses, faithful, scannedStatuses⟩ := evaluate_scanStatuses order legible
  refine ⟨peerIds, distinct, complete, ?_⟩
  have found : (ExceptT.mk (Client.keys pattern) : Query ReadReply _).run.evaluate
      (snapshot order store) = some (.ok (scanned order store pattern)) := rfl
  rw [getPeersOn, getLabelledPeers, indexed]
  dsimp only
  rw [evaluate_run_ok found, taken]
  dsimp only
  rw [evaluate_run_ok scannedStatuses, evaluate_listPeers order legible faithful]

/-- On a readable store the listing succeeds: one entry for each indexed peer
with a live status record, made up from its records. -/
theorem getPeersOn_readable (order : Enumeration) (readable : Readable formats store) {network : CKBNetworkType}
    (supported : network ≠ .dev) :
    ∃ peers, getPeersOn formats order store network = some (.ok peers) ∧
      (peers.map Prod.fst).Nodup ∧
      (∀ peerId, peerId ∈ peers.map Prod.fst ↔
        store.Live ((KeyFormat.peerNetworkQuick network).key peerId) ∧ Shown store peerId) ∧
      ∀ entry ∈ peers, ∃ position, entry.2 = storedEntry formats store position entry.1 := by
  obtain ⟨peerIds, distinct, complete, listed⟩ :=
    getPeersOn_legible formats order readable.legible supported
  have dated : ∀ peerId ∈ peerIds, Shown store peerId → Dated formats store peerId :=
    fun peerId _ _ => readable.dated peerId
  rw [if_pos dated] at listed
  refine ⟨_, listed, ?_, fun peerId => ?_, fun entry member => ?_⟩
  · rw [storedListing_ids]
    exact distinct.filter _
  · rw [storedListing_ids, List.mem_filter, complete, decide_eq_true_iff]
  · obtain ⟨position, _, _, same⟩ := storedListing_entries member
    exact ⟨position, same⟩

/-- `peer_in_map` on a store that stands still. -/
def peerInMapOn (formats : Formats F64) (order : Enumeration) (store : Store) (peerId : String) :
    Option (PeerStatus F64) :=
  (peerInMap formats peerId : Program ReadReply _).evaluate (snapshot order store)

/-- The pattern that an id makes of a key format selects a live key. -/
def Hit (store : Store) (format : KeyFormat) (peerId : String) : Prop :=
  ∃ key ∈ store.liveKeys, globMatches (format.key peerId) key = true

instance (store : Store) (format : KeyFormat) : DecidablePred (Hit store format) :=
  fun _ => Finset.decidableExistsAndFinset

theorem scanned_hit (order : Enumeration) (format : KeyFormat) (peerId : String) :
    (!(scanned order store (format.key peerId)).isEmpty) = decide (Hit store format peerId) := by
  rw [Bool.eq_iff_iff, decide_eq_true_iff, Bool.not_eq_true', List.isEmpty_eq_false_iff_exists_mem]
  simp only [mem_scanned, Hit, Store.mem_liveKeys]

/-- What is read from a status record; nothing else is an empty text. -/
def recordText (store : Store) (format : KeyFormat) (peerId : String) : String :=
  (store.text? (format.key peerId)).getD ""

def statusEntry (formats : Formats F64) (store : Store) (version versionShort peerId : String) :
    Option (PeerStatus F64) :=
  if Dated formats store peerId then
    some ⟨peerId, true, some (storedPeer formats store 0 version versionShort peerId)⟩
  else none

/-- The answer about an id, whatever its text: the first pattern that selects
anything decides, and then the record of that id is read. -/
def statusAnswer (formats : Formats F64) (store : Store) (peerId : String) : Option (PeerStatus F64) :=
  if Hit store .onlinePeer peerId then
    statusEntry formats store (recordText store .onlinePeer peerId)
      (versionShort (recordText store .onlinePeer peerId)) peerId
  else if Hit store .online2Peer peerId then
    statusEntry formats store (recordText store .online2Peer peerId)
      (versionShort (recordText store .online2Peer peerId)) peerId
  else if Hit store .unknownPeer peerId then statusEntry formats store "" "Unknown" peerId
  else some ⟨peerId, false, none⟩

theorem evaluate_recordText (order : Enumeration) (format : KeyFormat) (peerId : String) :
    (unwrapOr "" (Client.getString (format.key peerId)) : Program ReadReply _).evaluate
      (snapshot order store) = some (recordText store format peerId) := by
  have sent : (Client.send (.get (format.key peerId)) : Program ReadReply _).evaluate
      (snapshot order store) = some (snapshot order store (.get (format.key peerId))) := rfl
  rw [unwrapOr, evaluate_bind, Client.getString, evaluate_bind, sent, snapshot_get, recordText,
    Store.text?]
  rcases store.find? (format.key peerId) with _ | ⟨_ | _, _⟩ <;> rfl

theorem evaluate_statusEntry (order : Enumeration) (version versionShort peerId : String) :
    (do
      let peer ← makePeer formats 0 version versionShort peerId
      pure ⟨peerId, true, some peer⟩ : Program ReadReply _).evaluate (snapshot order store) =
      statusEntry formats store version versionShort peerId := by
  rw [evaluate_bind, evaluate_makePeer, statusEntry]
  by_cases dated : Dated formats store peerId
  · rw [if_pos dated, if_pos dated]
    rfl
  · rw [if_neg dated, if_neg dated]
    rfl

theorem evaluate_onlineInMap (order : Enumeration) (format : KeyFormat) (peerId : String) :
    (onlineInMap formats format peerId : Program ReadReply _).evaluate (snapshot order store) =
      statusEntry formats store (recordText store format peerId)
        (versionShort (recordText store format peerId)) peerId := by
  rw [onlineInMap, evaluate_bind, evaluate_recordText, Option.bind_some, evaluate_statusEntry]

theorem peerInMapOn_eq (formats : Formats F64) (order : Enumeration) (store : Store) (peerId : String) :
    peerInMapOn formats order store peerId = statusAnswer formats store peerId := by
  have found (format : KeyFormat) : (unwrapOr [] (Client.keys (format.key peerId)) :
      Program ReadReply _).evaluate (snapshot order store) =
        some (scanned order store (format.key peerId)) := rfl
  rw [peerInMapOn, peerInMap, evaluate_bind, found, Option.bind_some, scanned_hit, statusAnswer]
  by_cases online : Hit store .onlinePeer peerId
  · rw [if_pos (decide_eq_true online), evaluate_onlineInMap, if_pos online]
  · rw [if_neg (by simp [online]), if_neg online, evaluate_bind, found, Option.bind_some, scanned_hit]
    by_cases online2 : Hit store .online2Peer peerId
    · rw [if_pos (decide_eq_true online2), evaluate_onlineInMap, if_pos online2]
    · rw [if_neg (by simp [online2]), if_neg online2, evaluate_bind, found, Option.bind_some,
        scanned_hit]
      by_cases unknown : Hit store .unknownPeer peerId
      · rw [if_pos (decide_eq_true unknown), evaluate_statusEntry, if_pos unknown]
      · rw [if_neg (by simp [unknown]), if_neg unknown]
        rfl

/-- An id without metacharacters asks for its own record. -/
theorem hit_plain {format : KeyFormat} {peerId : String} (plain : PlainText (format.key peerId)) :
    Hit store format peerId ↔ store.Live (format.key peerId) := by
  constructor
  · intro given
    obtain ⟨key, live, selected⟩ := given
    rw [← (globMatches_plain plain key).mp selected]
    exact Store.mem_liveKeys.mp live
  · intro live
    exact ⟨_, Store.mem_liveKeys.mpr live, (globMatches_plain plain _).mpr rfl⟩

/-- The status of a peer with a plainly spelled id is its listing entry. -/
theorem peerInMapOn_plain (formats : Formats F64) (order : Enumeration) {peerId : String}
    (plain : ∀ format : KeyFormat, PlainText (format.key peerId)) :
    peerInMapOn formats order store peerId =
      if Shown store peerId then
        if Dated formats store peerId then
          some ⟨peerId, true, some (storedEntry formats store 0 peerId)⟩
        else none
      else some ⟨peerId, false, none⟩ := by
  rw [peerInMapOn_eq, statusAnswer]
  simp only [hit_plain (plain _), statusEntry]
  by_cases online : store.Live (KeyFormat.onlinePeer.key peerId)
  · simp [Shown, storedEntry, reportedVersion, reportedVersionShort, recordText, online]
  · by_cases online2 : store.Live (KeyFormat.online2Peer.key peerId)
    · simp [Shown, storedEntry, reportedVersion, reportedVersionShort, recordText, online, online2]
    · by_cases unknown : store.Live (KeyFormat.unknownPeer.key peerId) <;>
        simp [Shown, storedEntry, reportedVersion, reportedVersionShort, online, online2, unknown]

end CkbDiscovery.Exposed
