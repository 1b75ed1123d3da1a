import CkbDiscovery.Exposed.Index
import CkbDiscovery.Marci.Duplicates
import CkbDiscovery.Marci.Interference

/-! The listing of a network against the status of each of its peers. -/

namespace CkbDiscovery.Exposed

open Effect Redis Marci

variable {config : Config} {serde : Serde} {after : State} {peerId : String}
  {turns : List MarciTurn} {F64 : Type} {formats : Formats F64} {store : Store}

/-- The characters that a base58 text is made of. -/
def base58Alphabet : List Char :=
  "123456789ABCDEFGHJKLMNPQRSTUVWXYZabcdefghijkmnopqrstuvwxyz".toList

def Base58 (peerId : String) : Prop := ∀ char ∈ peerId.toList, char ∈ base58Alphabet

instance : DecidablePred Base58 := fun _ => List.decidableBAll _ _

theorem Base58.dotless (base58 : Base58 peerId) : '.' ∉ peerId.toList := by
  have foreign : '.' ∉ base58Alphabet := by decide
  exact fun dot => foreign (base58 _ dot)

/-- An id without metacharacters makes keys without them. -/
theorem plainText_key (plain : PlainText peerId) (format : KeyFormat) : PlainText (format.key peerId) := by
  have affixes : ∀ known ∈ KeyFormat.all, PlainText known.affix.before ∧ PlainText known.affix.after := by
    decide
  obtain ⟨first, last⟩ := affixes format format.mem_all
  intro byte member
  rw [KeyFormat.key, Affix.key, bytes_append, bytes_append] at member
  rcases List.mem_append.mp member with front | back
  · rcases List.mem_append.mp front with head | inside
    · exact first byte head
    · exact plain byte inside
  · exact last byte back

/-- A base58 id means itself to `KEYS`. -/
theorem Base58.plain (base58 : Base58 peerId) : PlainText peerId := by
  have alphabet : base58Alphabet.all fun char =>
      (String.utf8EncodeChar char).all fun byte => Plain byte := by
    decide
  apply plainText_of_chars
  intro char member byte spelled
  have each := List.all_eq_true.mp alphabet char (base58 char member)
  exact of_decide_eq_true (List.all_eq_true.mp each byte spelled)

/-- `index as i32` tells positions apart up to the width of the type. -/
theorem position_injective {first second : Nat} (firstBound : first < 2 ^ 32)
    (secondBound : second < 2 ^ 32) (same : Int32.ofNat first = Int32.ofNat second) :
    first = second := by
  have bits : first % 2 ^ 32 = second % 2 ^ 32 := by
    simpa using congrArg (fun number : Int32 => number.toBitVec.toNat) same
  rwa [Nat.mod_eq_of_lt firstBound, Nat.mod_eq_of_lt secondBound] at bits

theorem storedListing_numbers {index : Nat} {peerIds : List String}
    (bound : index + peerIds.length ≤ 2 ^ 32) :
    ((storedListing formats store index peerIds).map fun entry => entry.2.id).Nodup := by
  induction peerIds generalizing index with
  | nil => exact List.nodup_nil
  | cons peerId rest inductionHypothesis =>
    rw [List.length_cons] at bound
    have others : ((storedListing formats store (index + 1) rest).map fun entry => entry.2.id).Nodup :=
      inductionHypothesis (by omega)
    by_cases shown : Shown store peerId
    · rw [storedListing, if_pos shown, List.map_cons, List.nodup_cons]
      refine ⟨fun taken => ?_, others⟩
      obtain ⟨entry, member, same⟩ := List.mem_map.mp taken
      obtain ⟨position, first, last, made⟩ := storedListing_entries member
      have number : Int32.ofNat position = Int32.ofNat index := by
        rw [made] at same
        exact same
      have equal := position_injective (by omega) (by omega) number
      omega
    · rw [storedListing, if_neg shown]
      exact others

theorem storedListing_unlisted {index : Nat} {peerIds : List String}
    (unlisted : peerId ∈ peerIds → ¬ Shown store peerId) :
    (storedListing formats store index peerIds).filter (fun entry => entry.1 = peerId) = [] := by
  apply List.filter_eq_nil_iff.mpr
  intro entry listed same
  have ids := List.mem_map_of_mem (f := Prod.fst) listed
  rw [storedListing_ids, List.mem_filter, of_decide_eq_true same, decide_eq_true_iff] at ids
  exact unlisted ids.1 ids.2

/-- A shown peer has one entry. -/
theorem storedListing_listed {index : Nat} {peerIds : List String} (distinct : peerIds.Nodup)
    (member : peerId ∈ peerIds) (shown : Shown store peerId) :
    ∃ position, (storedListing formats store index peerIds).filter (fun entry => entry.1 = peerId) =
      [(peerId, storedEntry formats store position peerId)] := by
  induction peerIds generalizing index with
  | nil => cases member
  | cons head rest inductionHypothesis =>
    obtain ⟨fresh, others⟩ := List.nodup_cons.mp distinct
    rcases List.mem_cons.mp member with same | later
    · subst same
      refine ⟨index, ?_⟩
      rw [storedListing, if_pos shown, List.filter_cons_of_pos (by simp),
        storedListing_unlisted fun inside => absurd inside fresh]
    · have different : head ≠ peerId := fun same => fresh (same ▸ later)
      obtain ⟨position, only⟩ : ∃ position, (storedListing formats store (index + 1) rest).filter
          (fun entry => entry.1 = peerId) = [(peerId, storedEntry formats store position peerId)] :=
        inductionHypothesis others later
      refine ⟨position, ?_⟩
      by_cases headShown : Shown store head
      · rw [storedListing, if_pos headShown, List.filter_cons_of_neg (by simpa using different), only]
      · rw [storedListing, if_neg headShown, only]

/-- The index of the network holds at most so many peers. -/
def IndexWithin (store : Store) (network : CKBNetworkType) (bound : Nat) : Prop :=
  ∀ peerIds : Finset String,
    (∀ peerId ∈ peerIds, store.Live ((KeyFormat.peerNetworkQuick network).key peerId)) →
      peerIds.card ≤ bound

/-- What the listing of a network says about a peer is what its status says. -/
structure SameAnswer (peers : List (String × Peer F64)) (peerId : String) (answer : PeerStatus F64) :
    Prop where
  listed : answer.inMap = true → ∃ entry info,
    peers.filter (fun labelled => labelled.1 = peerId) = [(peerId, entry)] ∧
      answer.info = some info ∧ { entry with id := info.id } = info
  unlisted : answer.inMap = false → peers.filter (fun labelled => labelled.1 = peerId) = []

/-- The two readers agree on a network; each of them answers unless it comes to
a date past the calendar. -/
structure ReadersAgree (formats : Formats F64) (store : Store) (network : CKBNetworkType)
    (listing : Option (Except RedisError (List (String × Peer F64))))
    (status : String → Option (PeerStatus F64)) : Prop where
  listing_answers : listing.isSome ↔ ∀ peerId,
    store.Live ((KeyFormat.peerNetworkQuick network).key peerId) → Shown store peerId →
      Dated formats store peerId
  status_answers : ∀ peerId, store.Live ((KeyFormat.peerNetworkQuick network).key peerId) →
    ((status peerId).isSome ↔ (Shown store peerId → Dated formats store peerId))
  agree : ∀ result, listing = some result → ∃ peers, result = .ok peers ∧
    ∀ peerId, store.Live ((KeyFormat.peerNetworkQuick network).key peerId) →
      ∃ answer, status peerId = some answer ∧ SameAnswer peers peerId answer
  numbered : IndexWithin store network (2 ^ 32) → ∀ peers, listing = some (.ok peers) →
    (peers.map fun labelled => labelled.2.id).Nodup

theorem legible_agree (formats : Formats F64) (listing status : Enumeration) (legible : Legible store)
    {network : CKBNetworkType} (supported : network ≠ .dev)
    (base58 : ∀ peerId, store.Live ((KeyFormat.peerNetworkQuick network).key peerId) → Base58 peerId) :
    ReadersAgree formats store network (getPeersOn formats listing store network)
      (peerInMapOn formats status store) := by
  obtain ⟨peerIds, distinct, complete, listed⟩ := getPeersOn_legible formats listing legible supported
  have single : ∀ peerId, store.Live ((KeyFormat.peerNetworkQuick network).key peerId) →
      peerInMapOn formats status store peerId =
        if Shown store peerId then
          if Dated formats store peerId then
            some ⟨peerId, true, some (storedEntry formats store 0 peerId)⟩
          else none
        else some ⟨peerId, false, none⟩ :=
    fun peerId indexed => peerInMapOn_plain formats status (plainText_key (base58 peerId indexed).plain)
  have panics : (∀ peerId ∈ peerIds, Shown store peerId → Dated formats store peerId) ↔
      ∀ peerId, store.Live ((KeyFormat.peerNetworkQuick network).key peerId) → Shown store peerId →
        Dated formats store peerId :=
    forall_congr' fun peerId => by rw [complete]
  constructor
  · rw [listed, ← panics]
    split <;> simp_all
  · intro peerId indexed
    rw [single peerId indexed]
    by_cases shown : Shown store peerId <;> by_cases dated : Dated formats store peerId <;>
      simp [shown, dated]
  · intro result same
    rw [listed] at same
    split at same
    · rename_i dated
      obtain rfl := Option.some.inj same
      refine ⟨_, rfl, fun peerId indexed => ?_⟩
      have member := (complete peerId).mpr indexed
      rw [single peerId indexed]
      by_cases shown : Shown store peerId
      · rw [if_pos shown, if_pos (dated peerId member shown)]
        refine ⟨_, rfl, fun _ => ?_, nofun⟩
        obtain ⟨position, only⟩ : ∃ position, (storedListing formats store 0 peerIds).filter
            (fun entry => entry.1 = peerId) = [(peerId, storedEntry formats store position peerId)] :=
          storedListing_listed distinct member shown
        exact ⟨_, _, only, rfl, rfl⟩
      · rw [if_neg shown]
        exact ⟨_, rfl, nofun, fun _ => storedListing_unlisted fun _ => shown⟩
    · cases same
  · intro within peers same
    rw [listed] at same
    split at same
    · cases same
      apply storedListing_numbers
      have card := within peerIds.toFinset fun peerId member => (complete peerId).mp (by simpa using member)
      rw [List.toFinset_card_of_nodup distinct] at card
      omega
    · cases same

/-- After every run whose peers have base58 ids: on either network the listing
has exactly one entry for a peer of the network that is on the map, equal to the
status but for its number, and none for any other; the numbers are distinct on
an index of up to 2^32 peers. -/
theorem readers_agree (run : MarciRun config serde (.initial now) turns after)
    (base58 : ∀ turn ∈ turns, Base58 turn.message.subject) (formats : Formats F64)
    (listing status : Enumeration) {network : CKBNetworkType} (supported : network ≠ .dev) :
    ReadersAgree formats after.redis network (getPeersOn formats listing after.redis network)
      (peerInMapOn formats status after.redis) := by
  have dotless : Dotless turns := fun turn member => (base58 turn member).dotless
  apply legible_agree formats listing status (run_legible run dotless) supported
  intro peerId indexed
  obtain ⟨turn, member, rfl⟩ := run_recorded run _ peerId indexed
  exact base58 turn member

theorem readers_agree_advertised : ∃ turns after,
    MarciRun sampleConfig .unary (.initial 0) turns after ∧
      (∀ turn ∈ turns, Base58 turn.message.subject) ∧
      ReadersAgree sampleFormats after.redis .pudge
        (getPeersOn sampleFormats .sorted after.redis .pudge)
        (peerInMapOn sampleFormats .sorted after.redis) ∧
      (getPeersOn sampleFormats .sorted after.redis .pudge).isSome := by
  have played : (play sampleConfig .unary sampleSurroundings advertisedScript (.initial 0)).any
      fun result => decide ((∀ turn ∈ result.1, Base58 turn.message.subject) ∧
        (getPeersOn sampleFormats .sorted result.2.redis .pudge).isSome) := by
    decide
  obtain ⟨turns, after, run, base58, listed⟩ := play_reaches played
  exact ⟨turns, after, run, base58,
    readers_agree run base58 sampleFormats .sorted .sorted (by decide), listed⟩

/-- As many different base58 texts as one likes. -/
def crowdId (index : Nat) : String := String.ofList (List.replicate (index + 1) '1')

theorem crowdId_injective {first second : Nat} (same : crowdId first = crowdId second) :
    first = second := by
  have lengths := congrArg (fun text : String => text.toList.length) same
  simpa [crowdId] using lengths

theorem one_mem_base58 : '1' ∈ base58Alphabet := by decide

theorem base58_crowdId (index : Nat) : Base58 (crowdId index) := by
  intro char present
  rw [crowdId, String.toList_ofList] at present
  rw [List.eq_of_mem_replicate present]
  exact one_mem_base58

def crowdReport (index : Nat) : Message :=
  .reachable ⟨⟨crowdId index, [], .mirana⟩, ⟨crowdId 0, [], .mirana⟩⟩

def crowdArrival (index : Nat) : Message :=
  .online ⟨⟨crowdId index, [], .mirana⟩, "0.1", true, false⟩

theorem step_sadd_missing {key member : String} (missing : store.find? key = none) :
    (Command.sadd key member).step .sorted store =
      some ((1 : Nat), store.put key ⟨.set {member}, none⟩) := by
  simp only [Command.step, execute, missing]
  rfl

/-- The report of a peer that Redis knows nothing about is taken in. -/
theorem turnOf_crowdReport (index : Nat)
    (unknown : ∀ format : KeyFormat, store.find? (format.key (crowdId index)) = none) :
    ∃ after, turnOf sampleSurroundings sampleConfig .unary (crowdReport index) store = some ((), after) := by
  let report : ReachableInfo := ⟨⟨crowdId index, [], .mirana⟩, ⟨crowdId 0, [], .mirana⟩⟩
  obtain ⟨noted, recorded⟩ : ∃ noted, (recordReachable .unary report : Handler Unit).run
      (settle sampleSurroundings) store = some ((), noted) := by
    rw [recordReachable, run_bind_apply, Client.sadd, run_orReturn_send]
    change ∃ noted, ((Command.step .sorted _ store).bind _) = _
    rw [step_sadd_missing (unknown _)]
    exact ⟨_, rfl⟩
  obtain ⟨seen, stamped⟩ : ∃ seen, (setLastSeen (crowdId index) : Handler Unit).run
      (settle sampleSurroundings) noted = some ((), seen) := ⟨_, rfl⟩
  have unlocated : seen.find? (KeyFormat.peerCountry.key (crowdId index)) = none := by
    have records : Touches false [.reachablePeer, .peerNetworkQuick .mirana, .peerIp, .peerNetwork]
        (crowdId index) (recordReachable .unary report) := touches_recordReachable report
    have stamps : Touches false [.peerSeen] (crowdId index) (setLastSeen (crowdId index)) :=
      touches_setLastSeen _
    rw [(stamps.keeps .peerCountry (by decide) stamped).2,
      (records.keeps .peerCountry (by decide) recorded).2, unknown]
  have asked : (unwrapOr "" (Client.getString (KeyFormat.peerCountry.key (crowdId index))) :
      Handler String).run (settle sampleSurroundings) seen = some ("", seen) := by
    rw [unwrapOr, run_bind_apply, run_getString_missing unlocated]
    rfl
  have located : (locateReachable report).run (settle sampleSurroundings) seen = some ((), seen) :=
    run_locateReachable report asked
  rw [turnOf, crowdReport, handle, handleReachable, run_bind_apply, recorded, Option.bind_some,
    run_bind_apply, stamped, Option.bind_some, run_bind_apply, located]
  exact ⟨_, rfl⟩

/-- A first-hand report of a peer that is not online. -/
theorem run_markOnline_fresh {surroundings : Surroundings} {config : Config} {peer : PeerInfo}
    (firstHand : peer.isEx = false) (positive : 0 < config.ckbNodeDefaultTimeout.toNat)
    (within : store.now + 1000 * config.ckbNodeDefaultTimeout.toNat < 2 ^ 63)
    (offline : store.find? (KeyFormat.onlinePeer.key peer.info.peerId) = none) :
    (markOnline config peer).run (settle surroundings) store =
      some ((), store.put (KeyFormat.onlinePeer.key peer.info.peerId)
        ⟨.text peer.version, some (store.now + 1000 * config.ckbNodeDefaultTimeout.toNat)⟩) := by
  rw [markOnline, run_bind_apply, run_getString_missing offline, Option.bind_some]
  dsimp only
  rw [firstHand, if_neg Bool.false_ne_true, Client.setEx, run_orReturn_send]
  exact run_setEx positive within

theorem run_settleOnline (surroundings : Surroundings) (config : Config) (peer : PeerInfo) (store : Store) :
    ∃ after, (settleOnline config peer).run (settle surroundings) store = some ((), after) := ⟨_, rfl⟩

/-- A peer that nothing is known about comes online. -/
theorem turnOf_crowdArrival (index : Nat) (clock : store.now = 0)
    (offline : store.find? (KeyFormat.onlinePeer.key (crowdId index)) = none) :
    ∃ after, turnOf sampleSurroundings sampleConfig .unary (crowdArrival index) store =
      some ((), after) ∧ after.Live (KeyFormat.onlinePeer.key (crowdId index)) := by
  have positive : 0 < sampleConfig.ckbNodeDefaultTimeout.toNat := by decide
  have within : store.now + 1000 * sampleConfig.ckbNodeDefaultTimeout.toNat < 2 ^ 63 := by
    rw [clock]
    decide
  let peer : PeerInfo := ⟨⟨crowdId index, [], .mirana⟩, "0.1", true, false⟩
  have marked : (markOnline sampleConfig peer).run (settle sampleSurroundings) store = some ((), _) :=
    run_markOnline_fresh rfl positive within offline
  obtain ⟨after, settled⟩ := run_settleOnline sampleSurroundings sampleConfig peer
    (store.put (KeyFormat.onlinePeer.key (crowdId index))
      ⟨.text "0.1", some (store.now + 1000 * sampleConfig.ckbNodeDefaultTimeout.toNat)⟩)
  have settles : Touches false [.peerFull, .peerSeen, .unknownPeer] (crowdId index)
      (settleOnline sampleConfig peer) := touches_settleOnline peer
  refine ⟨after, ?_, ?_⟩
  · rw [turnOf, crowdArrival, handle, handleOnline, run_bind_apply, marked, Option.bind_some]
    exact settled
  · rw [Store.Live, (settles.keeps .onlinePeer (by decide) settled).2,
      store.find?_put_self _ (alive_after _ _ _)]
    rfl

/-- The first so many peers of the crowd have been reported and found online. -/
structure Gathered (count : Nat) (turns : List MarciTurn) (state : State) : Prop where
  clock : state.redis.now = 0
  uncached : sampleSurroundings.Agrees state.ipinfoCache
  subjects : ∀ turn ∈ turns, ∃ index < count, turn.message.subject = crowdId index
  reported : ∀ index < count, ∃ trace, ⟨crowdReport index, trace⟩ ∈ turns
  online : ∀ index < count, state.redis.Live (KeyFormat.onlinePeer.key (crowdId index))

/-- A turn that goes well on the store goes well. -/
theorem process_turned {message : Message} {state : State} {last : Store} (aboutPeer : message ≠ .tick)
    (uncached : sampleSurroundings.Agrees state.ipinfoCache)
    (turned : turnOf sampleSurroundings sampleConfig .unary message state.redis = some ((), last)) :
    ∃ after trace, process sampleSurroundings sampleConfig .unary message state = some after ∧
      HandlerCompletes state (handle sampleConfig .unary message) trace after () ∧
      after.redis = last ∧ sampleSurroundings.Agrees after.ipinfoCache := by
  have same : (process sampleSurroundings sampleConfig .unary message state).map State.redis =
      (turnOf sampleSurroundings sampleConfig .unary message state.redis).map Prod.snd :=
    process_redis aboutPeer uncached
  rw [turned] at same
  obtain ⟨after, processed, stored⟩ := Option.map_eq_some_iff.mp same
  obtain ⟨trace, completes⟩ := process_completes processed
  exact ⟨after, trace, processed, completes, stored, process_agrees aboutPeer uncached processed⟩

/-- One more peer joins the crowd. -/
theorem Gathered.join {count : Nat} {turns : List MarciTurn} {state : State}
    (run : MarciRun sampleConfig .unary (.initial 0) turns state) (gathered : Gathered count turns state) :
    ∃ turns after, MarciRun sampleConfig .unary (.initial 0) turns after ∧
      Gathered (count + 1) turns after := by
  have unknown : ∀ format : KeyFormat, state.redis.find? (format.key (crowdId count)) = none := by
    intro format
    apply Store.not_live_iff.mp
    intro live
    obtain ⟨turn, member, subject⟩ := run_recorded run format _ live
    obtain ⟨index, bound, other⟩ := gathered.subjects turn member
    have same : index = count := crowdId_injective (other.symm.trans subject)
    omega
  have others : ∀ index < count, crowdId index ≠ crowdId count := by
    intro index bound same
    have equal := crowdId_injective same
    omega
  obtain ⟨_, turned⟩ := turnOf_crowdReport count unknown
  obtain ⟨middle, reportTrace, reported, reportTurn, rfl, uncached⟩ :=
    process_turned (by simp [crowdReport]) gathered.uncached turned
  have aside : KeyFormat.onlinePeer ∉ (crowdReport count).formats := by
    simp [crowdReport, Message.formats]
  have reportKeeps : ∀ peerId, middle.redis.now = state.redis.now ∧
      middle.redis.find? (KeyFormat.onlinePeer.key peerId) =
        state.redis.find? (KeyFormat.onlinePeer.key peerId) :=
    fun _ => process_keeps .onlinePeer (.inl aside) reported
  have clock : middle.redis.now = 0 := by
    rw [(reportKeeps (crowdId count)).1, gathered.clock]
  have offline : middle.redis.find? (KeyFormat.onlinePeer.key (crowdId count)) = none := by
    rw [(reportKeeps _).2, unknown]
  obtain ⟨_, arrived, present⟩ := turnOf_crowdArrival count clock offline
  obtain ⟨after, arrivalTrace, arrival, arrivalTurn, rfl, settled⟩ :=
    process_turned (by simp [crowdArrival]) uncached arrived
  have arrivalKeeps : ∀ index < count, after.redis.find? (KeyFormat.onlinePeer.key (crowdId index)) =
      middle.redis.find? (KeyFormat.onlinePeer.key (crowdId index)) := by
    intro index bound
    have other : crowdId index ≠ (crowdArrival count).subject := others index bound
    exact (process_keeps .onlinePeer (.inr other) arrival).2
  have unreported : KeyFormat.reachablePeer ∉ (crowdArrival count).formats := by
    simp [crowdArrival, Message.formats]
  have still : after.redis.now = middle.redis.now ∧
      after.redis.find? (KeyFormat.reachablePeer.key (crowdId count)) = _ :=
    process_keeps .reachablePeer (.inl unreported) arrival
  refine ⟨⟨crowdArrival count, arrivalTrace⟩ :: ⟨crowdReport count, reportTrace⟩ :: turns, after,
    (run.turn reportTurn).turn arrivalTurn, ?_⟩
  constructor
  · rw [still.1, clock]
  · exact settled
  · intro turn member
    rcases List.mem_cons.mp member with rfl | earlier
    · exact ⟨count, Nat.lt_succ_self count, rfl⟩
    rcases List.mem_cons.mp earlier with rfl | first
    · exact ⟨count, Nat.lt_succ_self count, rfl⟩
    · obtain ⟨index, bound, same⟩ := gathered.subjects turn first
      exact ⟨index, by omega, same⟩
  · intro index bound
    rcases Nat.lt_succ_iff_lt_or_eq.mp bound with earlier | rfl
    · obtain ⟨trace, member⟩ := gathered.reported index earlier
      exact ⟨trace, List.mem_cons_of_mem _ (List.mem_cons_of_mem _ member)⟩
    · exact ⟨reportTrace, List.mem_cons_of_mem _ List.mem_cons_self⟩
  · intro index bound
    rcases Nat.lt_succ_iff_lt_or_eq.mp bound with earlier | rfl
    · rw [Store.Live, arrivalKeeps index earlier, (reportKeeps _).2]
      exact gathered.online index earlier
    · exact present

theorem crowd_gathers (count : Nat) : ∃ turns after,
    MarciRun sampleConfig .unary (.initial 0) turns after ∧ Gathered count turns after := by
  induction count with
  | zero =>
    refine ⟨[], .initial 0, .start, rfl, ?_, ?_, ?_, ?_⟩
    · intro ip details found
      cases found
    all_goals simp
  | succ count inductionHypothesis =>
    obtain ⟨turns, state, run, gathered⟩ := inductionHypothesis
    exact gathered.join run

/-- More numbers than a 32-bit integer has cannot be distinct. -/
theorem int32_repeats {numbers : List Int32} (many : 2 ^ 32 < numbers.length) : ¬ numbers.Nodup := by
  intro distinct
  have positions : (numbers.map fun number => number.toBitVec.toFin).Nodup := by
    apply distinct.map
    intro first second same
    exact Int32.toBitVec.inj (BitVec.toFin_inj.mp same)
  have few := positions.length_le_card
  rw [List.length_map, Fintype.card_fin] at few
  omega

theorem crowd_listed (count : Nat) : ∃ turns after peers,
    MarciRun sampleConfig .unary (.initial 0) turns after ∧
      (∀ turn ∈ turns, Base58 turn.message.subject) ∧
      getPeersOn sampleFormats .sorted after.redis .mirana = some (.ok peers) ∧
      count ≤ peers.length := by
  obtain ⟨turns, after, run, gathered⟩ := crowd_gathers count
  have base58 : ∀ turn ∈ turns, Base58 turn.message.subject := by
    intro turn member
    obtain ⟨index, _, same⟩ := gathered.subjects turn member
    rw [same]
    exact base58_crowdId index
  have supported : CKBNetworkType.mirana ≠ .dev := by decide
  have legible := run_legible run fun turn member => (base58 turn member).dotless
  have dated : ∀ peerId, Dated sampleFormats after.redis peerId := sampleFormats_dated after.redis
  obtain ⟨peerIds, _, complete, listed⟩ := getPeersOn_legible sampleFormats .sorted legible supported
  rw [if_pos fun peerId _ _ => dated peerId] at listed
  refine ⟨turns, after, _, run, base58, listed, ?_⟩
  have everyone : (List.range count).map crowdId ⊆
      (storedListing sampleFormats after.redis 0 peerIds).map Prod.fst := by
    intro peerId member
    obtain ⟨index, bound, rfl⟩ := List.mem_map.mp member
    rw [List.mem_range] at bound
    obtain ⟨trace, reported⟩ := gathered.reported index bound
    have indexed := (run_ledger run (crowdId index)).indexed .mirana
    rw [storedListing_ids, List.mem_filter, complete, indexed]
    have named : report? (crowdId index) ⟨crowdReport index, trace⟩ =
        some ⟨⟨crowdId index, [], .mirana⟩, ⟨crowdId 0, [], .mirana⟩⟩ := if_pos rfl
    exact ⟨⟨_, List.mem_filterMap.mpr ⟨_, reported, named⟩, rfl⟩,
      decide_eq_true (.inl (gathered.online index bound))⟩
  have distinct : ((List.range count).map crowdId).Nodup :=
    List.nodup_range.map fun _ _ same => crowdId_injective same
  have size := (distinct.subperm everyone).length_le
  rwa [List.length_map, List.length_range, List.length_map] at size

/-- On an index of more peers two entries of a listing have the same number. -/
theorem crowded_listing_repeats : ∃ turns after peers,
    MarciRun sampleConfig .unary (.initial 0) turns after ∧
      (∀ turn ∈ turns, Base58 turn.message.subject) ∧
      getPeersOn sampleFormats .sorted after.redis .mirana = some (.ok peers) ∧
      ¬ (peers.map fun labelled => labelled.2.id).Nodup := by
  obtain ⟨turns, after, peers, run, base58, listed, many⟩ := crowd_listed (2 ^ 32 + 1)
  refine ⟨turns, after, peers, run, base58, listed, int32_repeats ?_⟩
  rw [List.length_map]
  exact many

end CkbDiscovery.Exposed
