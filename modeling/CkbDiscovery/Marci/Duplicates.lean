import CkbDiscovery.Marci.Instant

/-! Processing a message once more at the same instant changes nothing: each
piece of a handler may be repeated, and pieces about different records may be
exchanged. -/

namespace CkbDiscovery.Marci

open Effect Redis

variable {surroundings : Surroundings} {config : Config} {serde : Serde}
  {store before after : Store} {peerId : String}

/-- A handler about some records of a peer that may be repeated. -/
structure Repeatable (surroundings : Surroundings) (formats : List KeyFormat) (peerId : String)
    (handler : Handler Unit) : Prop where
  touches : Touches true formats peerId handler
  settles : Idempotent (handler.run (settle surroundings))

theorem Repeatable.andThen {first second : Handler Unit} {earlier later : List KeyFormat}
    (head : Repeatable surroundings earlier peerId first)
    (tail : Repeatable surroundings later peerId second)
    (apart : ∀ format ∈ later, format ∉ earlier) :
    Repeatable surroundings (earlier ++ later) peerId (first >>= fun _ => second) where
  touches := (head.touches.mono (List.subset_append_left _ _)).andThen fun _ =>
    tail.touches.mono (List.subset_append_right _ _)
  settles := by
    rw [run_bind]
    exact head.settles.andThen tail.settles (tail.touches.commutes head.touches (.inr apart))

theorem run_orReturn_send (command : Command) :
    (orReturn (Client.send command) : Handler _).run (settle surroundings) =
      command.step surroundings.order := by
  funext store
  change ((Program.perform (MarciCall.redis command)) >>= _ : Handler _).run _ _ = _
  rw [run_perform_bind]
  simp only [settle]
  cases command.step surroundings.order store <;> rfl

/-- A handler that ends in a command whose reply is not used. -/
theorem run_discard (command : Command) :
    (do let _ ← orReturn (Client.send command : Handler _)).run (settle surroundings) store =
      (command.step surroundings.order store).map fun result => ((), result.2) := by
  rw [run_bind, run_orReturn_send]
  change (command.step surroundings.order store).bind _ = _
  cases command.step surroundings.order store <;> rfl

theorem repeatable_set (format : KeyFormat) (value : String) :
    Repeatable surroundings [format] peerId (orReturn (Client.set (format.key peerId) value)) := by
  refine ⟨(touches_record format rfl List.mem_cons_self).orReturn, ?_⟩
  apply idempotent_of_stable
  intro before after ran
  rw [Client.set, run_orReturn_send] at ran ⊢
  cases ran
  exact congrArg (fun store => some ((), store)) (Store.put_put ..)

theorem step_setEx {key value : String} {seconds : Nat}
    (ran : (Command.setEx key value seconds).step surroundings.order before = some ((), after)) :
    0 < seconds ∧ before.now + 1000 * seconds < 2 ^ 63 ∧
      after = before.put key ⟨.text value, some (before.now + 1000 * seconds)⟩ := by
  simp only [Command.step, execute] at ran
  split at ran
  · cases ran
  · rename_i positive
    cases limit : deadlineAfter before.now seconds with
    | none =>
      rw [limit] at ran
      cases ran
    | some deadline =>
      rw [limit] at ran
      cases ran
      obtain ⟨within, rfl⟩ := deadlineAfter_eq_some.mp limit
      exact ⟨Nat.pos_of_ne_zero positive, within, rfl⟩

theorem run_setEx {key value : String} {seconds : Nat} (positive : 0 < seconds)
    (within : store.now + 1000 * seconds < 2 ^ 63) :
    (Command.setEx key value seconds).step surroundings.order store =
      some ((), store.put key ⟨.text value, some (store.now + 1000 * seconds)⟩) := by
  have limit := deadlineAfter_eq_some.mpr ⟨within, rfl⟩
  simp only [Command.step, execute, if_neg (Nat.ne_of_gt positive), limit]
  rfl

theorem repeatable_setEx (format : KeyFormat) (value : String) (seconds : Nat) :
    Repeatable surroundings [format] peerId
      (orReturn (Client.setEx (format.key peerId) value seconds)) := by
  refine ⟨(touches_record format rfl List.mem_cons_self).orReturn, ?_⟩
  apply idempotent_of_stable
  intro before after ran
  rw [Client.setEx, run_orReturn_send] at ran ⊢
  obtain ⟨positive, within, rfl⟩ := step_setEx ran
  refine (run_setEx positive ?_).trans ?_
  · exact within
  · exact congrArg (fun store => some ((), store)) (Store.put_put ..)

theorem repeatable_del (format : KeyFormat) :
    Repeatable surroundings [format] peerId
      (do let _ ← orReturn (Client.del (format.key peerId))) := by
  refine ⟨(touches_record format rfl List.mem_cons_self).orReturn.andThen fun _ => trivial, ?_⟩
  apply idempotent_of_stable
  intro before after ran
  rw [Client.del, run_discard] at ran ⊢
  cases ran
  exact congrArg (fun store => some ((), store)) (Store.remove_remove ..)

theorem of_step {order : Enumeration} {command : Command} {reply : command.Reply}
    (stepped : command.step order before = some (reply, after)) :
    execute order before command = .ok (reply, after) := by
  unfold Command.step at stepped
  cases executed : execute order before command with
  | error error =>
    rw [executed] at stepped
    cases stepped
  | ok result =>
    rw [executed] at stepped
    cases stepped
    rfl

theorem sadd_members {key member : String}
    (ran : ((Command.sadd key member).step surroundings.order before).map (fun result => ((), result.2)) =
      some ((), after)) : after.members key = insert member (before.members key) := by
  obtain ⟨⟨reply, last⟩, stepped, same⟩ := Option.map_eq_some_iff.mp ran
  cases same
  exact (execute_sadd (of_step stepped)).1

theorem repeatable_sadd (format : KeyFormat) (member : String) :
    Repeatable surroundings [format] peerId
      (do let _ ← orReturn (Client.sadd (format.key peerId) member)) := by
  refine ⟨(touches_record format rfl List.mem_cons_self).orReturn.andThen fun _ => trivial, ?_⟩
  apply idempotent_of_stable
  intro before after ran
  rw [Client.sadd, run_discard] at ran ⊢
  have added : member ∈ after.members (format.key peerId) := by
    rw [sadd_members ran]
    exact Finset.mem_insert_self ..
  rw [Command.step, execute_sadd_again surroundings.order added]
  rfl

/-- The loop that adds the addresses leaves all of them in the set. -/
theorem members_forEach_sadd {key : String} {text : α → String} {items : List α}
    (ran : (Program.forEach (fun item => do let _ ← orReturn (Client.sadd key (text item))) items :
      Handler Unit).run (settle surroundings) before = some ((), after)) :
    before.members key ⊆ after.members key ∧ ∀ item ∈ items, text item ∈ after.members key := by
  induction items generalizing before with
  | nil =>
    cases ran
    exact ⟨Finset.Subset.refl _, by simp⟩
  | cons item rest inductionHypothesis =>
    rw [Program.forEach, run_bind_apply] at ran
    obtain ⟨⟨_, middle⟩, added, ranRest⟩ := Option.bind_eq_some_iff.mp ran
    obtain ⟨kept, present⟩ := inductionHypothesis ranRest
    rw [Client.sadd, run_discard] at added
    have grown := sadd_members added
    constructor
    · intro member before
      apply kept
      rw [grown]
      exact Finset.mem_insert_of_mem before
    · intro other member
      rcases List.mem_cons.mp member with rfl | later
      · apply kept
        rw [grown]
        exact Finset.mem_insert_self ..
      · exact present other later

theorem run_forEach_sadd {key : String} {text : α → String} {items : List α}
    (present : ∀ item ∈ items, text item ∈ store.members key) :
    (Program.forEach (fun item => do let _ ← orReturn (Client.sadd key (text item))) items :
      Handler Unit).run (settle surroundings) store = some ((), store) := by
  induction items with
  | nil => rfl
  | cons item rest inductionHypothesis =>
    rw [Program.forEach, run_bind_apply, Client.sadd, run_discard, Command.step,
      execute_sadd_again surroundings.order (present item List.mem_cons_self)]
    exact inductionHypothesis fun other member => present other (List.mem_cons_of_mem _ member)

theorem repeatable_saddAll (format : KeyFormat) (text : α → String) (items : List α) :
    Repeatable surroundings [format] peerId (Program.forEach
      (fun item => do let _ ← orReturn (Client.sadd (format.key peerId) (text item))) items) := by
  constructor
  · apply Program.Within.forEach
    intro item _
    exact (touches_record format rfl List.mem_cons_self).orReturn.andThen fun _ => trivial
  · apply idempotent_of_stable
    intro before after ran
    exact run_forEach_sadd (members_forEach_sadd ran).2

theorem repeatable_setIpDetails (peerId : String) (ip : IpDetails) :
    Repeatable surroundings locationFormats peerId (setIpDetails peerId ip) :=
  (repeatable_set .peerCountry _).andThen ((repeatable_set .peerCity _).andThen
    ((repeatable_set .peerRegion _).andThen (repeatable_set .peerPos _) (by decide)) (by decide))
    (by decide)

theorem repeatable_setLastSeen (peerId : String) :
    Repeatable surroundings [.peerSeen] peerId (setLastSeen peerId) where
  touches := touches_setLastSeen peerId
  settles := by
    have stamps : Repeatable surroundings [.peerSeen] peerId (orReturn (Client.set
        (KeyFormat.peerSeen.key peerId) (toString surroundings.clock.toNat))) :=
      repeatable_set .peerSeen _
    exact stamps.settles

theorem repeatable_settleOnline (peer : PeerInfo) :
    Repeatable surroundings [.peerFull, .peerSeen, .unknownPeer] peer.info.peerId
      (settleOnline config peer) :=
  (repeatable_set .peerFull _).andThen ((repeatable_setLastSeen _).andThen
    (repeatable_del .unknownPeer) (by decide)) (by decide)

theorem repeatable_promoteUnknown (peerId : String) :
    Repeatable surroundings [.unknownPeer, .reachablePeer] peerId (promoteUnknown config peerId) :=
  (repeatable_setEx .unknownPeer _ _).andThen (repeatable_del .reachablePeer) (by decide)

/-- Records a handler does not touch stay. -/
theorem Touches.keeps {formats : List KeyFormat} {locates : Bool} {handler : Handler α} {value : α}
    (touches : Touches locates formats peerId handler) (format : KeyFormat) (outside : format ∉ formats)
    (ran : handler.run (settle surroundings) before = some (value, after)) :
    after.now = before.now ∧ after.find? (format.key peerId) = before.find? (format.key peerId) := by
  refine run_relates (fun earlier later : Store => later.now = earlier.now ∧
    later.find? (format.key peerId) = earlier.find? (format.key peerId)) (fun _ => ⟨rfl, rfl⟩)
    (fun first second => ⟨second.1.trans first.1, second.2.trans first.2⟩) ?_ touches ran
  intro earlier question reply later about answered
  cases question with
  | redis command =>
    obtain ⟨other, member, touched⟩ := about
    obtain ⟨result, stepped, same⟩ := Option.map_eq_some_iff.mp answered
    cases same
    rw [step_local surroundings.order touched] at stepped
    obtain ⟨effect, _, applied⟩ := Option.map_eq_some_iff.mp stepped
    cases applied
    refine ⟨effect.2.apply_now .., effect.2.apply_find? ?_ _⟩
    intro same
    obtain ⟨rfl, _⟩ := KeyFormat.key_eq_key.mp same
    exact outside member
  | _ => cases answered; exact ⟨rfl, rfl⟩

theorem run_getString_missing {key : String} (missing : store.find? key = none) :
    (Client.getString key : Handler _).run (settle surroundings) store =
      some (.error .typeConversion, store) := by
  change ((Program.perform (MarciCall.redis (.get key))) >>= _ : Handler _).run _ _ = _
  rw [run_perform_bind]
  simp only [settle, Command.step, execute, missing]
  rfl

theorem run_getString_text {key content : String} {deadline : Option Nat}
    (found : store.find? key = some ⟨.text content, deadline⟩) :
    (Client.getString key : Handler _).run (settle surroundings) store = some (.ok content, store) := by
  change ((Program.perform (MarciCall.redis (.get key))) >>= _ : Handler _).run _ _ = _
  rw [run_perform_bind]
  simp only [settle, Command.step, execute, found]
  rfl

/-- A read that gets an answer. -/
theorem run_getString_some {key : String} {next : Except RedisError String → Handler α} {value : α}
    (ran : (Client.getString key >>= next).run (settle surroundings) before = some (value, after)) :
    (before.find? key = none ∧
      (next (.error .typeConversion)).run (settle surroundings) before = some (value, after)) ∨
    ∃ content deadline, before.find? key = some ⟨.text content, deadline⟩ ∧
      (next (.ok content)).run (settle surroundings) before = some (value, after) := by
  rw [run_bind_apply] at ran
  cases found : before.find? key with
  | none =>
    rw [run_getString_missing found] at ran
    exact .inl ⟨rfl, ran⟩
  | some entry =>
    obtain ⟨stored, deadline⟩ := entry
    cases stored with
    | text content =>
      rw [run_getString_text found] at ran
      exact .inr ⟨content, deadline, rfl, ran⟩
    | set members =>
      have failed : (Client.getString key : Handler _).run (settle surroundings) before = none := by
        change ((Program.perform (MarciCall.redis (.get key))) >>= _ : Handler _).run _ _ = _
        rw [run_perform_bind]
        simp only [settle, Command.step, execute, found]
        rfl
      rw [failed] at ran
      cases ran

theorem run_tryIntoI64 {value : UInt64} (within : value.toNat < 2 ^ 63) :
    (tryIntoI64 value).run (settle surroundings) = pure value.toNat := by
  rw [tryIntoI64, if_pos within]
  rfl

/-- A renewal with a positive timeout. -/
theorem run_expireOnline {key : String} {entry : Entry} (found : store.find? key = some entry)
    (positive : 0 < config.ckbNodeDefaultTimeout.toNat)
    (within : store.now + 1000 * config.ckbNodeDefaultTimeout.toNat < 2 ^ 63) :
    (expireOnline config key).run (settle surroundings) store = some ((), store.put key
      { entry with deadline := some (store.now + 1000 * config.ckbNodeDefaultTimeout.toNat) }) := by
  have limit := deadlineAfter_eq_some.mpr ⟨within, rfl⟩
  rw [expireOnline, run_bind, run_tryIntoI64 (by omega), pure_bind, Client.expire, run_discard]
  simp only [Command.step, execute, limit, found, if_neg (Nat.ne_of_gt positive)]
  rfl

theorem run_expireOnline_within {key : String}
    (ran : (expireOnline config key).run (settle surroundings) before = some ((), after)) :
    before.now + 1000 * config.ckbNodeDefaultTimeout.toNat < 2 ^ 63 := by
  by_cases converts : config.ckbNodeDefaultTimeout.toNat < 2 ^ 63
  · rw [expireOnline, run_bind, run_tryIntoI64 converts, pure_bind, Client.expire, run_discard] at ran
    obtain ⟨⟨reply, last⟩, stepped, same⟩ := Option.map_eq_some_iff.mp ran
    cases limit : deadlineAfter before.now config.ckbNodeDefaultTimeout.toNat with
    | none =>
      simp only [Command.step, execute, limit] at stepped
      cases stepped
    | some deadline => exact (deadlineAfter_eq_some.mp limit).1
  · rw [expireOnline, run_bind, tryIntoI64, if_neg converts] at ran
    cases ran

/-- A text record whose deadline is a timeout away is renewed to itself. -/
theorem run_expireOnline_again {key content : String} (positive : 0 < config.ckbNodeDefaultTimeout.toNat)
    (within : store.now + 1000 * config.ckbNodeDefaultTimeout.toNat < 2 ^ 63)
    (found : store.find? key =
      some ⟨.text content, some (store.now + 1000 * config.ckbNodeDefaultTimeout.toNat)⟩) :
    (expireOnline config key).run (settle surroundings) store = some ((), store) := by
  refine (run_expireOnline found positive within).trans ?_
  rw [Store.put_same found]

theorem alive_after (now duration : Nat) (value : Value) :
    (Entry.mk value (some (now + duration))).aliveAt now = true := by
  simp [Entry.aliveAt]

/-- An online record renewed or written at this instant is renewed to itself. -/
theorem repeatable_markOnline (positive : 0 < config.ckbNodeDefaultTimeout.toNat) (peer : PeerInfo) :
    Repeatable surroundings [.onlinePeer, .online2Peer] peer.info.peerId (markOnline config peer) := by
  refine ⟨touches_markOnline peer, ?_⟩
  apply idempotent_of_stable
  intro before after ran
  rcases run_getString_some ran with ⟨missing, written⟩ | ⟨content, deadline, found, renewed⟩
  · by_cases external : peer.isEx = true
    · simp only [external, if_true] at written
      have sets : Repeatable surroundings [.online2Peer] peer.info.peerId _ :=
        repeatable_setEx .online2Peer peer.version config.ckbNodeDefaultTimeout.toNat
      have kept := sets.touches.keeps .onlinePeer (by decide) written
      rw [markOnline, run_bind_apply, run_getString_missing (kept.2.trans missing), Option.bind_some]
      simp only [external, if_true]
      exact sets.settles.stable written
    · simp only [external, Bool.false_eq_true, if_false] at written
      rw [Client.setEx, run_orReturn_send] at written
      obtain ⟨_, within, rfl⟩ := step_setEx written
      have placed := before.find?_put_self (KeyFormat.onlinePeer.key peer.info.peerId)
        (alive_after before.now (1000 * config.ckbNodeDefaultTimeout.toNat) (.text peer.version))
      rw [markOnline, run_bind_apply, run_getString_text placed, Option.bind_some]
      exact run_expireOnline_again positive within placed
  · have within := run_expireOnline_within renewed
    have renewal := (run_expireOnline found positive within).symm.trans renewed
    cases renewal
    have placed := before.find?_put_self (KeyFormat.onlinePeer.key peer.info.peerId)
      (alive_after before.now (1000 * config.ckbNodeDefaultTimeout.toNat) (.text content))
    rw [markOnline, run_bind_apply, run_getString_text placed, Option.bind_some]
    exact run_expireOnline_again positive within placed

theorem run_scard {key : String} {count : Nat} {last : Store}
    (ran : (unwrapOr 0 (Client.scard key) : Handler Nat).run (settle surroundings) before =
      some (count, last)) : last = before := by
  change ((Program.perform (MarciCall.redis (.scard key))) >>= _ : Handler _).run _ _ = _ at ran
  rw [run_perform_bind] at ran
  obtain ⟨_, asked, rest⟩ := Option.bind_eq_some_iff.mp ran
  obtain ⟨⟨reply, counted⟩, stepped, rfl⟩ := Option.map_eq_some_iff.mp asked
  cases rest
  exact (execute_scard (of_step stepped)).1

theorem run_scard_missing {key : String} (missing : store.find? key = none) :
    (unwrapOr 0 (Client.scard key) : Handler Nat).run (settle surroundings) store = some (0, store) := by
  change ((Program.perform (MarciCall.redis (.scard key))) >>= _ : Handler _).run _ _ = _
  rw [run_perform_bind]
  simp only [settle, Command.step, execute, missing]
  rfl

/-- Spent witnesses are spent again, and fewer than enough stay fewer. -/
theorem repeatable_verifyWitnesses (peerId : String) :
    Repeatable surroundings [.unknownPeer, .reachablePeer] peerId (verifyWitnesses config peerId) := by
  refine ⟨touches_verifyWitnesses peerId, ?_⟩
  apply idempotent_of_stable
  intro before after ran
  have again := ran
  rw [verifyWitnesses, run_bind_apply] at ran
  obtain ⟨⟨count, counted⟩, asked, rest⟩ := Option.bind_eq_some_iff.mp ran
  obtain rfl := run_scard asked
  by_cases enough : config.ckbNodeDefaultWitnesses.toNat ≤ count
  · rw [if_pos enough] at rest
    have spent : after.find? (KeyFormat.reachablePeer.key peerId) = none := by
      rw [promoteUnknown, run_bind_apply] at rest
      obtain ⟨⟨_, marked⟩, _, deleted⟩ := Option.bind_eq_some_iff.mp rest
      rw [Client.del, run_discard] at deleted
      cases deleted
      exact marked.find?_remove_self _
    have promotes : Repeatable surroundings [.unknownPeer, .reachablePeer] peerId
        (promoteUnknown config peerId) := repeatable_promoteUnknown peerId
    rw [verifyWitnesses, run_bind_apply, run_scard_missing spent, Option.bind_some]
    split
    · exact promotes.settles.stable rest
    · rfl
  · rw [if_neg enough] at rest
    cases rest
    exact again

theorem repeatable_markUnknown (positive : 0 < config.ckbNodeDefaultTimeout.toNat) (peerId : String) :
    Repeatable surroundings [.onlinePeer, .unknownPeer, .reachablePeer] peerId
      (markUnknown config peerId) := by
  refine ⟨touches_markUnknown peerId, ?_⟩
  apply idempotent_of_stable
  intro before after ran
  rcases run_getString_some ran with ⟨missing, verified⟩ | ⟨content, deadline, found, renewed⟩
  · have verifies : Repeatable surroundings [.unknownPeer, .reachablePeer] peerId
        (verifyWitnesses config peerId) := repeatable_verifyWitnesses peerId
    have kept := verifies.touches.keeps .onlinePeer (by decide) verified
    rw [markUnknown, run_bind_apply, run_getString_missing (kept.2.trans missing), Option.bind_some]
    exact verifies.settles.stable verified
  · have within := run_expireOnline_within renewed
    have renewal := (run_expireOnline found positive within).symm.trans renewed
    cases renewal
    have placed := before.find?_put_self (KeyFormat.onlinePeer.key peerId)
      (alive_after before.now (1000 * config.ckbNodeDefaultTimeout.toNat) (.text content))
    rw [markUnknown, run_bind_apply, run_getString_text placed, Option.bind_some]
    exact run_expireOnline_again positive within placed

theorem run_queryByReachable (addresses : List EndpointInfo) :
    (queryByReachable addresses).run (settle surroundings) =
      pure (addresses.findSome? fun addr => surroundings.ipinfo addr.address.toString) := by
  induction addresses with
  | nil => rfl
  | cons addr rest inductionHypothesis =>
    rw [queryByReachable, run_bind, run_lookupIpinfo, pure_bind, List.findSome?_cons]
    cases surroundings.ipinfo addr.address.toString with
    | none => exact inductionHypothesis
    | some details => rfl

/-- What is stored about a place that has been found or not. -/
def settleAt (peerId : String) : Option IpDetails → Handler Unit
  | none => pure ()
  | some ip => setIpDetails peerId ip

theorem repeatable_settleAt (peerId : String) (found : Option IpDetails) :
    Repeatable surroundings locationFormats peerId (settleAt peerId found) := by
  cases found with
  | none => exact ⟨trivial, .pure⟩
  | some ip => exact repeatable_setIpDetails peerId ip

/-- With lookups a function of the address, an online peer is located in two steps. -/
theorem run_locateOnline {peer : PeerInfo} {addr : EndpointInfo}
    (head : peer.info.addresses.head? = some addr) :
    (locateOnline config serde peer).run (settle surroundings) =
      (do
        orReturn (Client.setEx (KeyFormat.onlineIp.key peer.info.peerId)
          (serde.endpointInfo.toString addr) config.ckbNodeDefaultTimeout.toNat)
        settleAt peer.info.peerId (surroundings.ipinfo addr.address.toString) : Handler Unit).run
          (settle surroundings) := by
  simp only [locateOnline, head]
  refine (run_bind _ _).trans ((bind_congr fun _ => ?_).trans (run_bind _ _).symm)
  rw [run_bind, queryByIp, run_lookupIpinfo, pure_bind]
  cases surroundings.ipinfo addr.address.toString <;> rfl

theorem repeatable_locateOnline (peer : PeerInfo) :
    Repeatable surroundings (.onlineIp :: locationFormats) peer.info.peerId
      (locateOnline config serde peer) := by
  refine ⟨touches_locateOnline peer, ?_⟩
  cases head : peer.info.addresses.head? with
  | none =>
    simp only [locateOnline, head]
    exact .pure
  | some addr =>
    rw [run_locateOnline head]
    have located : Repeatable surroundings (.onlineIp :: locationFormats) peer.info.peerId (do
        orReturn (Client.setEx (KeyFormat.onlineIp.key peer.info.peerId)
          (serde.endpointInfo.toString addr) config.ckbNodeDefaultTimeout.toNat)
        settleAt peer.info.peerId (surroundings.ipinfo addr.address.toString)) :=
      (repeatable_setEx .onlineIp _ _).andThen (repeatable_settleAt _ _) (by decide)
    exact located.settles

theorem run_locateReachable (peer : ReachableInfo) {country : String}
    (read : (unwrapOr "" (Client.getString (KeyFormat.peerCountry.key peer.peer.peerId)) :
      Handler String).run (settle surroundings) store = some (country, store)) :
    (locateReachable peer).run (settle surroundings) store =
      (if country.isEmpty then settleAt peer.peer.peerId (peer.peer.addresses.findSome? fun addr =>
        surroundings.ipinfo addr.address.toString) else pure ()).run (settle surroundings) store := by
  rw [locateReachable, run_bind_apply, read, Option.bind_some]
  split
  · rw [run_bind, run_queryByReachable, pure_bind]
    cases peer.peer.addresses.findSome? fun addr => surroundings.ipinfo addr.address.toString <;> rfl
  · rfl

/-- The read of the country, when the record is a text or missing. -/
theorem run_country {key country : String} {last : Store}
    (ran : (unwrapOr "" (Client.getString key) : Handler String).run (settle surroundings) store =
      some (country, last)) : last = store ∧ country = (store.text? key).getD "" := by
  rw [unwrapOr] at ran
  rcases run_getString_some ran with ⟨missing, rest⟩ | ⟨content, deadline, found, rest⟩
  · cases rest
    simp [Store.text?, missing]
  · cases rest
    simp [Store.text?, found]

theorem run_country_text {key content : String} {deadline : Option Nat}
    (found : store.find? key = some ⟨.text content, deadline⟩) :
    (unwrapOr "" (Client.getString key) : Handler String).run (settle surroundings) store =
      some (content, store) := by
  rw [unwrapOr, run_bind_apply, run_getString_text found]
  rfl

/-- After the details are stored, their country is. -/
theorem setIpDetails_country {ip : IpDetails}
    (ran : (setIpDetails peerId ip).run (settle surroundings) before = some ((), after)) :
    after.find? (KeyFormat.peerCountry.key peerId) = some ⟨.text ip.country, none⟩ := by
  rw [setIpDetails, run_bind_apply] at ran
  obtain ⟨⟨_, placed⟩, country, others⟩ := Option.bind_eq_some_iff.mp ran
  have rest : Touches false [.peerCity, .peerRegion, .peerPos] peerId (do
      orReturn (Client.set (KeyFormat.peerCity.key peerId) ip.city)
      orReturn (Client.set (KeyFormat.peerRegion.key peerId) ip.region)
      orReturn (Client.set (KeyFormat.peerPos.key peerId) ip.loc) : Handler Unit) :=
    (touches_record .peerCity rfl (by decide)).orReturn.andThen fun _ =>
      (touches_record .peerRegion rfl (by decide)).orReturn.andThen fun _ =>
      (touches_record .peerPos rfl (by decide)).orReturn
  rw [(rest.keeps .peerCountry (by decide) others).2]
  rw [Client.set, run_orReturn_send] at country
  exact execute_set (of_step country)

/-- A country that has been filled is not looked up again, and an empty one is
filled the same way. -/
theorem repeatable_locateReachable (peer : ReachableInfo) :
    Repeatable surroundings locationFormats peer.peer.peerId (locateReachable peer) := by
  refine ⟨touches_locateReachable peer, ?_⟩
  apply idempotent_of_stable
  intro before after ran
  have again := ran
  rw [locateReachable, run_bind_apply] at ran
  obtain ⟨⟨country, read⟩, asked, _⟩ := Option.bind_eq_some_iff.mp ran
  obtain ⟨rfl, _⟩ := run_country asked
  have written := (run_locateReachable peer asked).symm.trans again
  by_cases unlocated : country.isEmpty = true
  · rw [if_pos unlocated] at written
    cases found : peer.peer.addresses.findSome? (fun addr =>
        surroundings.ipinfo addr.address.toString) with
    | none =>
      rw [found] at written
      cases written
      exact again
    | some ip =>
      rw [found] at written
      have details : Repeatable surroundings locationFormats peer.peer.peerId
          (setIpDetails peer.peer.peerId ip) := repeatable_setIpDetails _ ip
      rw [run_locateReachable peer (run_country_text (setIpDetails_country written)), found]
      split
      · exact details.settles.stable written
      · rfl
  · rw [if_neg unlocated] at written
    cases written
    exact again

theorem repeatable_recordReachable (peer : ReachableInfo) :
    Repeatable surroundings [.reachablePeer, .peerNetworkQuick peer.peer.network, .peerIp, .peerNetwork]
      peer.peer.peerId (recordReachable serde peer) := by
  have stored : Repeatable surroundings [.peerNetworkQuick peer.peer.network, .peerIp, .peerNetwork]
      peer.peer.peerId (do
        orReturn (Client.set ((KeyFormat.peerNetworkQuick peer.peer.network).key peer.peer.peerId) "0")
        Program.forEach (fun ip => do
          let _ ← orReturn (Client.sadd (KeyFormat.peerIp.key peer.peer.peerId)
            (serde.endpointInfo.toString ip))) peer.peer.addresses
        orReturn (Client.set (KeyFormat.peerNetwork.key peer.peer.peerId) peer.peer.network.intoStr)) :=
    (repeatable_set _ _).andThen ((repeatable_saddAll .peerIp serde.endpointInfo.toString _).andThen
      (repeatable_set .peerNetwork _) (by simp)) (by simp)
  have recorded := (repeatable_sadd .reachablePeer peer.from.peerId).andThen stored (by simp)
  rw [bind_assoc] at recorded
  exact recorded

theorem settles_setLastUpdate : Idempotent (setLastUpdate.run (settle surroundings)) := by
  apply idempotent_of_stable
  intro before after ran
  cases ran
  exact congrArg (fun store => some ((), store)) (Store.put_put ..)

/-- Every message about a peer may be processed once more. -/
theorem turn_repeatable (positive : 0 < config.ckbNodeDefaultTimeout.toNat) {message : Message}
    (aboutPeer : message ≠ .tick) : Idempotent (turnOf surroundings config serde message) := by
  cases message with
  | online peer =>
    have settled : Repeatable surroundings _ peer.info.peerId (handleOnline config serde peer) :=
      (repeatable_markOnline positive peer).andThen ((repeatable_locateOnline peer).andThen
        (repeatable_settleOnline peer) (by decide)) (by decide)
    exact settled.settles
  | unknown peer =>
    have settled : Repeatable surroundings _ peer.peerId (handleUnknown config peer) :=
      (repeatable_markUnknown positive peer.peerId).andThen (repeatable_setLastSeen peer.peerId) (by decide)
    exact settled.settles
  | reachable peer =>
    have recorded : Repeatable surroundings _ peer.peer.peerId (do
        recordReachable serde peer
        setLastSeen peer.peer.peerId
        locateReachable peer) :=
      (repeatable_recordReachable peer).andThen ((repeatable_setLastSeen peer.peer.peerId).andThen
        (repeatable_locateReachable peer) (by decide)) (by simp [locationFormats])
    have apart : Commutes (setLastUpdate.run (settle surroundings)) _ :=
      (run_commutes (fun _ about => (setLastUpdate_commutes about).symm) recorded.touches).symm
    have settled := recorded.settles.andThen settles_setLastUpdate apart
    rw [← run_bind, bind_assoc] at settled
    simp only [bind_assoc] at settled
    exact settled
  | tick => exact absurd rfl aboutPeer

variable (surroundings config serde) in
/-- A message processed once and then a number of times more. -/
def deliver (message : Message) : Nat → State → Option State
  | 0, state => process surroundings config serde message state
  | copies + 1, state =>
    (process surroundings config serde message state).bind (deliver message copies)

/-- A message of a sequence: what happens to the store before it is taken up,
and what the clock reads then. -/
structure Delivery where
  meanwhile : Store → Store
  clock : UInt64
  message : Message

variable (surroundings config serde) in
/-- A sequence of messages, each repeated after itself a number of times. -/
def deliverAll : List (Delivery × Nat) → State → Option State
  | [], state => some state
  | (delivery, copies) :: rest, state =>
    (deliver { surroundings with clock := delivery.clock } config serde delivery.message copies
      { state with redis := delivery.meanwhile state.redis }).bind (deliverAll rest)

variable {message : Message} {state : State}

variable (surroundings config serde message) in
/-- Repetitions end in the store of the first processing. -/
structure Delivers (copies : Nat) (state : State) : Prop where
  same : (deliver surroundings config serde message copies state).map State.redis =
    (turnOf surroundings config serde message state.redis).map Prod.snd
  agrees : ∀ after, deliver surroundings config serde message copies state = some after →
    surroundings.Agrees after.ipinfoCache

theorem deliver_redis (positive : 0 < config.ckbNodeDefaultTimeout.toNat) (aboutPeer : message ≠ .tick)
    (copies : Nat) (agrees : surroundings.Agrees state.ipinfoCache) :
    Delivers surroundings config serde message copies state := by
  induction copies generalizing state with
  | zero => exact ⟨process_redis aboutPeer agrees, fun _ => process_agrees aboutPeer agrees⟩
  | succ copies inductionHypothesis =>
    have once : (process surroundings config serde message state).map State.redis =
        (turnOf surroundings config serde message state.redis).map Prod.snd :=
      process_redis aboutPeer agrees
    cases processed : process surroundings config serde message state with
    | none =>
      rw [processed] at once
      constructor
      · rw [deliver, processed]
        exact once
      · intro after delivered
        rw [deliver, processed] at delivered
        cases delivered
    | some middle =>
      rw [processed] at once
      obtain ⟨⟨_, last⟩, turned, same⟩ := Option.map_eq_some_iff.mp once.symm
      obtain rfl : last = middle.redis := same
      obtain ⟨again, agreed⟩ := inductionHypothesis (process_agrees aboutPeer agrees processed)
      rw [(turn_repeatable positive aboutPeer).stable turned] at again
      constructor
      · rw [deliver, processed, Option.bind_some, turned]
        exact again
      · intro after delivered
        rw [deliver, processed, Option.bind_some] at delivered
        exact agreed after delivered

theorem deliverAll_redis (positive : 0 < config.ckbNodeDefaultTimeout.toNat)
    {deliveries : List (Delivery × Nat)}
    (aboutPeers : ∀ delivery ∈ deliveries, delivery.1.message ≠ .tick)
    (agrees : surroundings.Agrees state.ipinfoCache) :
    (deliverAll surroundings config serde deliveries state).map State.redis =
      (deliveries.map Prod.fst).foldlM (fun store delivery =>
        (turnOf { surroundings with clock := delivery.clock } config serde delivery.message
          (delivery.meanwhile store)).map Prod.snd) state.redis := by
  induction deliveries generalizing state with
  | nil => rfl
  | cons head rest inductionHypothesis =>
    obtain ⟨delivery, copies⟩ := head
    have delivers : Delivers { surroundings with clock := delivery.clock } config serde delivery.message
        copies { state with redis := delivery.meanwhile state.redis } :=
      deliver_redis positive (aboutPeers _ List.mem_cons_self) copies agrees
    obtain ⟨same, agreed⟩ := delivers
    rw [deliverAll, List.map_cons, List.foldlM_cons, ← same]
    cases delivered : deliver { surroundings with clock := delivery.clock } config serde delivery.message
        copies { state with redis := delivery.meanwhile state.redis } with
    | none => rfl
    | some middle =>
      exact inductionHypothesis (fun other member => aboutPeers other (List.mem_cons_of_mem _ member))
        (agreed middle delivered)

/-- Repeating a message right after itself never changes the store, nor does
doing so anywhere in a sequence of messages. -/
theorem duplicates_harmless (positive : 0 < config.ckbNodeDefaultTimeout.toNat) :
    (∀ {message state}, message ≠ .tick → surroundings.Agrees state.ipinfoCache → ∀ copies,
      (deliver surroundings config serde message copies state).map State.redis =
        (process surroundings config serde message state).map State.redis) ∧
    ∀ {deliveries : List (Delivery × Nat)} {state},
      (∀ delivery ∈ deliveries, delivery.1.message ≠ .tick) → surroundings.Agrees state.ipinfoCache →
      (deliverAll surroundings config serde deliveries state).map State.redis =
        (deliverAll surroundings config serde (deliveries.map fun delivery => (delivery.1, 0)) state).map
          State.redis := by
  constructor
  · intro message state aboutPeer agrees copies
    rw [(deliver_redis positive aboutPeer copies agrees).same, process_redis aboutPeer agrees]
  · intro deliveries state aboutPeers agrees
    have single : ∀ delivery ∈ deliveries.map fun delivery => (delivery.1, 0),
        delivery.1.message ≠ .tick := by
      intro delivery member
      obtain ⟨original, listed, rfl⟩ := List.mem_map.mp member
      exact aboutPeers original listed
    rw [deliverAll_redis positive aboutPeers agrees, deliverAll_redis positive single agrees,
      List.map_map]
    rfl

def waited (duration : Nat) (store : Store) : Store := { store with now := store.now + duration }

/-- A peer is reported, promoted on a failed dial and comes online, with every
message delivered more than once. -/
def repeatedDeliveries : List (Delivery × Nat) :=
  [(⟨waited 0, 1, .reachable ⟨⟨"Qm", [sampleEndpoint], .mirana⟩, ⟨"Qr", [], .mirana⟩⟩⟩, 1),
    (⟨waited 5, 2, .unknown ⟨"Qm", [], .mirana⟩⟩, 2),
    (⟨waited 7, 3, .online ⟨⟨"Qm", [sampleEndpoint], .mirana⟩, "0.1", true, false⟩⟩, 1)]

theorem duplicates_harmless_sample :
    (deliverAll sampleSurroundings sampleConfig sampleSerde repeatedDeliveries (.initial 0)).isSome ∧
    (deliverAll sampleSurroundings sampleConfig sampleSerde repeatedDeliveries (.initial 0)).map State.redis =
      (deliverAll sampleSurroundings sampleConfig sampleSerde
        (repeatedDeliveries.map fun delivery => (delivery.1, 0)) (.initial 0)).map State.redis := by
  refine ⟨by decide +kernel, (duplicates_harmless (by decide)).2 ?_ ?_⟩
  · intro delivery member same
    simp only [repeatedDeliveries, List.mem_cons, List.not_mem_nil, or_false] at member
    rcases member with rfl | rfl | rfl <;> cases same
  · intro ip details found
    cases found

end CkbDiscovery.Marci
