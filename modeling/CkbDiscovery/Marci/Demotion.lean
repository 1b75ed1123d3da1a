import CkbDiscovery.Marci.Ledger

/-! What a failed dial takes from a peer. The unknown branch asks for the
`peer.online` record only, so a peer under `peer.online2` is treated as offline. -/

namespace CkbDiscovery.Marci

open Effect Redis

variable {config : Config} {serde : Serde} {before middle after : State} {trace : HandlerTrace}
  {peerId : String} {turns : List MarciTurn}

/-- Between the two stores the peer is not marked unknown and its witness set,
from which the ticks broadcast it, is neither written nor lost. -/
structure StaysBroadcast (peerId : String) (before : Store) (trace : HandlerTrace)
    (after : Store) : Prop where
  unmarked : ∀ event ∈ trace, event.question.writes ≠ some (KeyFormat.unknownPeer.key peerId)
  unspent : ∀ event ∈ trace, event.question.writes ≠ some (KeyFormat.reachablePeer.key peerId)
  witnessed : after.find? (KeyFormat.reachablePeer.key peerId) =
    before.find? (KeyFormat.reachablePeer.key peerId)

theorem stays_of_onlyWrites {handler : Handler α} {formats : List KeyFormat} {subject : String}
    (timeless : Timeless before.redis (KeyFormat.reachablePeer.key peerId))
    (only : OnlyWrites broadcasts formats subject handler)
    (unmarked : .unknownPeer ∉ formats) (unspent : .reachablePeer ∉ formats)
    (completes : HandlerCompletes before handler trace after value) :
    StaysBroadcast peerId before.redis trace after.redis where
  unmarked := only.unwritten completes _ _ (.inl unmarked)
  unspent := only.unwritten completes _ _ (.inl unspent)
  witnessed := timeless.unchanged (only.frame completes)
    fun inside => unspent (mem_recordKeys.mp inside).1

theorem StaysBroadcast.append {first rest : HandlerTrace} {before middle after : Store}
    (earlier : StaysBroadcast peerId before first middle)
    (later : StaysBroadcast peerId middle rest after) :
    StaysBroadcast peerId before (first ++ rest) after where
  unmarked event member := (List.mem_append.mp member).elim (earlier.unmarked event) (later.unmarked event)
  unspent event member := (List.mem_append.mp member).elim (earlier.unspent event) (later.unspent event)
  witnessed := later.witnessed.trans earlier.witnessed

/-- An offline peer stays broadcast with too few witnesses and is marked with enough. -/
theorem verifyWitnesses_decides
    (timeless : Timeless before.redis (KeyFormat.reachablePeer.key peerId))
    (completes : HandlerCompletes before (verifyWitnesses config peerId) trace after ()) :
    (before.redis.members (KeyFormat.reachablePeer.key peerId)).card <
        config.ckbNodeDefaultWitnesses.toNat ∧ StaysBroadcast peerId before.redis trace after.redis ∨
      config.ckbNodeDefaultWitnesses.toNat ≤
        (before.redis.members (KeyFormat.reachablePeer.key peerId)).card ∧
        ∃ event ∈ trace, event.question.stores = some (KeyFormat.unknownPeer.key peerId) := by
  obtain ⟨_, counted, witnesses, _, counting, deciding, rfl⟩ := Completes.split completes
  obtain ⟨_, scarded, same⟩ := HandlerCompletes.unwrapOr counting
  have count : OnlyWrites false [] peerId (Client.send (.scard (KeyFormat.reachablePeer.key peerId)) :
      Handler _) := onlyWrites_read rfl
  have countStays := stays_of_onlyWrites timeless count List.not_mem_nil List.not_mem_nil scarded
  obtain ⟨sent, size, rfl, rfl, served⟩ := HandlerCompletes.send scarded
  obtain ⟨unchanged, _⟩ := timeless.members_of_fades served.earlier (Set.notMem_empty _)
  subst same
  rw [← unchanged, ← served.scard]
  split at deciding
  · rename_i enough
    obtain ⟨_, stored, _⟩ := promoteUnknown_spends deciding
    obtain ⟨event, member, marks⟩ := stored
    exact .inr ⟨enough, event, List.mem_append_right _ member, marks⟩
  · rename_i few
    have quiet : OnlyWrites false [] peerId (pure () : Handler Unit) := trivial
    have decided := stays_of_onlyWrites (timeless.of_same countStays.witnessed) quiet
      List.not_mem_nil List.not_mem_nil deciding
    exact .inl ⟨Nat.lt_of_not_le few, countStays.append decided⟩

/-- The branch asks for the online record first, and what that request meets
decides about the whole turn. -/
theorem handleUnknown_decides {peer : NodeMetaInfo}
    (timeless : Timeless before.redis (KeyFormat.reachablePeer.key peer.peerId))
    (completes : HandlerCompletes before (handleUnknown config peer) trace after ()) :
    ∃ asked reply rest,
      trace = ⟨asked, .redis (.get (KeyFormat.onlinePeer.key peer.peerId)), reply⟩ :: rest ∧
        before.redis.Fades asked.redis ∧
        ((asked.redis.Live (KeyFormat.onlinePeer.key peer.peerId) ∨
            (asked.redis.members (KeyFormat.reachablePeer.key peer.peerId)).card <
              config.ckbNodeDefaultWitnesses.toNat) ∧
            StaysBroadcast peer.peerId before.redis trace after.redis ∨
          ¬ asked.redis.Live (KeyFormat.onlinePeer.key peer.peerId) ∧
            config.ckbNodeDefaultWitnesses.toNat ≤
              (asked.redis.members (KeyFormat.reachablePeer.key peer.peerId)).card ∧
            Promotes peer.peerId ⟨.unknown peer, trace⟩) := by
  obtain ⟨_, marked, _, _, marking, seeing, rfl⟩ := Completes.split completes
  obtain ⟨_, read, reply, _, asking, branch, rfl⟩ := Completes.split marking
  have asks : OnlyWrites false [] peer.peerId
      (Client.getString (KeyFormat.onlinePeer.key peer.peerId) : Handler _) := onlyWrites_getString _
  have askStays := stays_of_onlyWrites timeless asks List.not_mem_nil List.not_mem_nil asking
  obtain ⟨asked, answer, rfl, earlier, later, found⟩ := HandlerCompletes.getString asking
  have timelessRead := timeless.of_same askStays.witnessed
  -- the mark of the last sighting is the same in both branches
  have finish : ∀ {rest}, StaysBroadcast peer.peerId read.redis rest marked.redis →
      StaysBroadcast peer.peerId before.redis (_ :: rest ++ _) after.redis := fun stays =>
    (askStays.append stays).append (stays_of_onlyWrites (timelessRead.of_same stays.witnessed)
      (onlyWrites_setLastSeen _) (by decide) (by decide) seeing)
  refine ⟨asked, answer, _, rfl, earlier, ?_⟩
  cases reply with
  | ok version =>
    obtain ⟨entry, stored⟩ := Store.found_of_text? found
    have renewed := stays_of_onlyWrites timelessRead (onlyWrites_expireOnline _) (by decide)
      (by decide) branch
    exact .inl ⟨.inl (Store.live_iff.mpr ⟨entry, stored⟩), finish renewed⟩
  | error _ =>
    have askedTimeless := (timeless.members_of_fades earlier (Set.notMem_empty _)).2
    obtain ⟨same, _⟩ := askedTimeless.members_of_fades later (Set.notMem_empty _)
    rw [← same]
    rcases verifyWitnesses_decides timelessRead branch with ⟨few, stays⟩ | ⟨enough, event, member, marks⟩
    · exact .inl ⟨.inr few, finish stays⟩
    · refine .inr ⟨Store.not_live_iff.mpr found, enough, event, ?_, marks⟩
      simp [member]

/-- In every run and for every failed dial, whatever the peer's `peer.online2`
record: the peer stays broadcast exactly when its `peer.online` record is live
at the start of the step, or its witnesses are too few to promote it. -/
theorem failed_dial_spares (run : MarciRun config serde (.initial now) turns before)
    {peer : NodeMetaInfo}
    (completes : HandlerCompletes before (handle config serde (.unknown peer)) trace after ()) :
    ∃ asked reply rest,
      trace = ⟨asked, .redis (.get (KeyFormat.onlinePeer.key peer.peerId)), reply⟩ :: rest ∧
        before.redis.Fades asked.redis ∧
        (StaysBroadcast peer.peerId before.redis trace after.redis ↔
          asked.redis.Live (KeyFormat.onlinePeer.key peer.peerId) ∨
            (asked.redis.members (KeyFormat.reachablePeer.key peer.peerId)).card <
              config.ckbNodeDefaultWitnesses.toNat) := by
  have ledger := run_ledger run peer.peerId
  obtain ⟨asked, reply, rest, shape, earlier, decided⟩ :=
    handleUnknown_decides (ledger.timeless .reachablePeer (by decide)) completes
  refine ⟨asked, reply, rest, shape, earlier, ?_⟩
  rcases decided with ⟨spared, stays⟩ | ⟨offline, enough, event, member, marks⟩
  · exact iff_of_true stays spared
  · refine iff_of_false (fun stays => ?_) (not_or.mpr ⟨offline, Nat.not_lt.mpr enough⟩)
    exact stays.unmarked event member (MarciCall.writes_of_stores marks)

/-- A peer is witnessed, then seen by a dialer from outside and reported with
its `is_ex` mark. -/
def confirmedScript : List (Nat × Message) :=
  [(0, .reachable ⟨⟨"Qm", [], .mirana⟩, ⟨"Qr", [], .mirana⟩⟩),
    (5, .online ⟨⟨"Qm", [], .mirana⟩, "0.1", true, true⟩)]

theorem failed_dial_spares_confirmed : ∃ turns before trace after,
    MarciRun sampleConfig .unary (.initial 0) turns before ∧
      HandlerCompletes before (handle sampleConfig .unary (.unknown ⟨"Qm", [], .mirana⟩)) trace after () ∧
      before.redis.Live (KeyFormat.online2Peer.key "Qm") ∧
      ∃ asked reply rest,
        trace = ⟨asked, .redis (.get (KeyFormat.onlinePeer.key "Qm")), reply⟩ :: rest ∧
          before.redis.Fades asked.redis ∧
          (StaysBroadcast "Qm" before.redis trace after.redis ↔
            asked.redis.Live (KeyFormat.onlinePeer.key "Qm") ∨
              (asked.redis.members (KeyFormat.reachablePeer.key "Qm")).card < 1) := by
  have played : ∃ turns before trace after, MarciRun sampleConfig .unary (.initial 0) turns before ∧
      HandlerCompletes before (handle sampleConfig .unary (.unknown ⟨"Qm", [], .mirana⟩)) trace after () ∧
      before.redis.Live (KeyFormat.online2Peer.key "Qm") := by
    apply play_turn sampleSurroundings confirmedScript
    decide
  obtain ⟨turns, before, trace, after, run, completes, live⟩ := played
  exact ⟨turns, before, trace, after, run, completes, live, failed_dial_spares run completes⟩

/-- The `peer.online2` record is live throughout, and yet one failed dial marks
the peer unknown and takes it out of the broadcasts. -/
theorem confirmed_peer_demoted : ∃ turns before trace after,
    MarciRun sampleConfig .unary (.initial 0) turns before ∧
      HandlerCompletes before (handle sampleConfig .unary (.unknown ⟨"Qm", [], .mirana⟩)) trace after () ∧
      before.redis.Live (KeyFormat.online2Peer.key "Qm") ∧
      before.redis.Live (KeyFormat.reachablePeer.key "Qm") ∧
      after.redis.Live (KeyFormat.online2Peer.key "Qm") ∧
      after.redis.Live (KeyFormat.unknownPeer.key "Qm") ∧
      ¬ after.redis.Live (KeyFormat.reachablePeer.key "Qm") := by
  apply play_turn sampleSurroundings confirmedScript
  decide

end CkbDiscovery.Marci
