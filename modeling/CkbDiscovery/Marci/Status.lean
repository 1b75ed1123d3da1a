import CkbDiscovery.Marci.Footprint

/-! What the online and unknown branches do to the status records of their
peer, over a whole turn with expiry anywhere inside it. -/

namespace CkbDiscovery.Marci

open Effect Redis

variable {config : Config} {serde : Serde} {before after : State} {trace : HandlerTrace}

/-- A deadline set by a command issued between two stores. -/
def SetBetween (before after : Store) (seconds deadline : Nat) : Prop :=
  0 < seconds ∧ before.now + 1000 * seconds ≤ deadline ∧ deadline ≤ after.now + 1000 * seconds

/-- The three ways an online report ends up in the status records. Each record
may have expired again by the end. -/
inductive MarksOnline (config : Config) (peer : PeerInfo) (before : Store) (trace : HandlerTrace)
    (after : Store) : Prop where
  | refreshed {entry : Entry}
      (found : before.find? (KeyFormat.onlinePeer.key peer.info.peerId) = some entry)
      (read : ∃ event ∈ trace,
        event.question = .redis (.get (KeyFormat.onlinePeer.key peer.info.peerId)) ∧
          event.before.redis.find? (KeyFormat.onlinePeer.key peer.info.peerId) = some entry)
      (moved : ∀ kept, after.find? (KeyFormat.onlinePeer.key peer.info.peerId) = some kept →
        ∃ deadline, SetBetween before after config.ckbNodeDefaultTimeout.toNat deadline ∧
          kept = { entry with deadline := some deadline })
      (other : ∀ kept, after.find? (KeyFormat.online2Peer.key peer.info.peerId) = some kept →
        before.find? (KeyFormat.online2Peer.key peer.info.peerId) = some kept)
  | external (isEx : peer.isEx = true)
      (missing : after.find? (KeyFormat.onlinePeer.key peer.info.peerId) = none)
      (placed : ∀ kept, after.find? (KeyFormat.online2Peer.key peer.info.peerId) = some kept →
        ∃ deadline, SetBetween before after config.ckbNodeDefaultTimeout.toNat deadline ∧
          kept = ⟨.text peer.version, some deadline⟩)
  | direct (isEx : peer.isEx = false)
      (stored : ∃ event ∈ trace, event.question = .redis (.setEx
        (KeyFormat.onlinePeer.key peer.info.peerId) peer.version config.ckbNodeDefaultTimeout.toNat))
      (placed : ∀ kept, after.find? (KeyFormat.onlinePeer.key peer.info.peerId) = some kept →
        ∃ deadline, SetBetween before after config.ckbNodeDefaultTimeout.toNat deadline ∧
          kept = ⟨.text peer.version, some deadline⟩)
      (other : ∀ kept, after.find? (KeyFormat.online2Peer.key peer.info.peerId) = some kept →
        before.find? (KeyFormat.online2Peer.key peer.info.peerId) = some kept)

theorem SetBetween.widen {earlier before after later : Store} {seconds deadline : Nat}
    (between : SetBetween before after seconds deadline) (first : earlier.now ≤ before.now)
    (last : after.now ≤ later.now) : SetBetween earlier later seconds deadline := by
  unfold SetBetween at *
  omega

/-- `EXPIRE` on the record that a `GET` met a moment ago. -/
theorem expireOnline_moves {peerId : String} {entry : Entry} {earlier : Store}
    (quiet : earlier.Fades before.redis)
    (found : earlier.find? (KeyFormat.onlinePeer.key peerId) = some entry)
    (completes : HandlerCompletes before
      (expireOnline config (KeyFormat.onlinePeer.key peerId)) trace after ()) :
    ∀ kept, after.redis.find? (KeyFormat.onlinePeer.key peerId) = some kept →
      ∃ deadline, SetBetween earlier after.redis config.ckbNodeDefaultTimeout.toNat deadline ∧
        kept = { entry with deadline := some deadline } := by
  obtain ⟨_, counted, seconds, _, converted, expired, _⟩ := Completes.split completes
  obtain ⟨rfl, still⟩ := HandlerCompletes.tryIntoI64 converted
  obtain ⟨_, moved, _, _, command, finished, _⟩ := Completes.split expired
  obtain ⟨sent, _, served⟩ := HandlerCompletes.command command
  obtain ⟨ending, _⟩ := HandlerCompletes.done finished
  intro kept located
  obtain ⟨positive, previous, met, same⟩ :=
    served.expire kept (ending.older _ (Set.notMem_empty _) kept located)
  have traced := (quiet.trans still).older _ (Set.notMem_empty _) previous met
  obtain rfl := Option.some.inj (found.symm.trans traced)
  obtain ⟨start, finish⟩ := served.clock
  have opening := (quiet.trans still).clock
  have closing := ending.clock
  exact ⟨_, ⟨positive, by omega, by omega⟩, same⟩

theorem setEx_places {key value : String} {seconds : Nat} {asked : State}
    (served : Served (.setEx key value seconds) () before after asked) :
    ∀ kept, after.redis.find? key = some kept →
      ∃ deadline, SetBetween before.redis after.redis seconds deadline ∧
        kept = ⟨.text value, some deadline⟩ := by
  intro kept located
  obtain ⟨start, finish⟩ := served.clock
  obtain ⟨positive, placed⟩ := served.setEx
  exact ⟨_, ⟨positive, by omega, by omega⟩, placed kept located⟩

theorem markOnline_marks {peer : PeerInfo}
    (completes : HandlerCompletes before (markOnline config peer) trace after ()) :
    MarksOnline config peer before.redis trace after.redis := by
  obtain ⟨_, middle, reply, _, asked, branch, rfl⟩ := Completes.split completes
  obtain ⟨met, _, rfl, earlier, later, read⟩ := HandlerCompletes.getString asked
  have quiet : before.redis.Fades middle.redis := earlier.trans later
  cases reply with
  | ok version =>
    obtain ⟨entry, stored⟩ := Store.found_of_text? read
    have found := earlier.older _ (Set.notMem_empty _) entry stored
    have frame := (onlyWrites_expireOnline _).frame branch
    refine .refreshed found ⟨_, List.mem_cons_self, rfl, stored⟩
      (expireOnline_moves quiet found branch) fun kept located => ?_
    exact quiet.older _ (Set.notMem_empty _) kept (frame.older _ (by simp) kept located)
  | error _ =>
    have missing := later.absent (Set.notMem_empty _) read
    dsimp only at branch
    split at branch
    · rename_i isEx
      obtain ⟨sent, _, served⟩ := HandlerCompletes.command branch
      have frame := served.frame_record .online2Peer peer.info.peerId rfl
      refine .external isEx (frame.absent (by simp) missing) (fun kept located => ?_)
      obtain ⟨deadline, between, same⟩ := setEx_places served kept located
      exact ⟨deadline, between.widen quiet.clock (Nat.le_refl _), same⟩
    · rename_i isEx
      obtain ⟨sent, rfl, served⟩ := HandlerCompletes.command branch
      have frame := served.frame_record .onlinePeer peer.info.peerId rfl
      refine .direct (Bool.eq_false_iff.mpr isEx)
        ⟨_, List.mem_append_right _ List.mem_cons_self, rfl⟩ (fun kept located => ?_) (fun kept located => ?_)
      · obtain ⟨deadline, between, same⟩ := setEx_places served kept located
        exact ⟨deadline, between.widen quiet.clock (Nat.le_refl _), same⟩
      · exact quiet.older _ (Set.notMem_empty _) kept (frame.older _ (by simp) kept located)

/-- The rest of the turn only lets the status records fade. -/
theorem MarksOnline.later {peer : PeerInfo} {earlier middle last : Store}
    {formats : List KeyFormat} {longer : HandlerTrace}
    (marks : MarksOnline config peer earlier trace middle) (included : trace ⊆ longer)
    (fades : middle.FadesOutside (recordKeys formats peer.info.peerId) last)
    (notOnline : .onlinePeer ∉ formats) (notOnline2 : .online2Peer ∉ formats) :
    MarksOnline config peer earlier longer last := by
  have online := fades.older (KeyFormat.onlinePeer.key peer.info.peerId) (by simp [notOnline])
  have online2 := fades.older (KeyFormat.online2Peer.key peer.info.peerId) (by simp [notOnline2])
  cases marks with
  | refreshed found read moved other =>
    obtain ⟨event, member, read⟩ := read
    refine .refreshed found ⟨event, included member, read⟩ (fun kept located => ?_) fun kept located => other kept (online2 kept located)
    obtain ⟨deadline, between, same⟩ := moved kept (online kept located)
    exact ⟨deadline, between.widen (Nat.le_refl _) fades.clock, same⟩
  | external isEx missing placed =>
    refine .external isEx (fades.absent (by simp [notOnline]) missing) fun kept located => ?_
    obtain ⟨deadline, between, same⟩ := placed kept (online2 kept located)
    exact ⟨deadline, between.widen (Nat.le_refl _) fades.clock, same⟩
  | direct isEx stored placed other =>
    obtain ⟨event, member, same⟩ := stored
    refine .direct isEx ⟨event, included member, same⟩ (fun kept located => ?_) fun kept located => other kept (online2 kept located)
    obtain ⟨deadline, between, same⟩ := placed kept (online kept located)
    exact ⟨deadline, between.widen (Nat.le_refl _) fades.clock, same⟩

theorem settleOnline_unmarks {peer : PeerInfo}
    (completes : HandlerCompletes before (settleOnline config peer) trace after ()) :
    after.redis.find? (KeyFormat.unknownPeer.key peer.info.peerId) = none := by
  obtain ⟨_, _, _, _, _, rest, _⟩ := Completes.split completes
  obtain ⟨_, _, _, _, _, rest, _⟩ := Completes.split rest
  obtain ⟨_, _, _, _, deleted, finished, _⟩ := Completes.split rest
  obtain ⟨_, _, served⟩ := HandlerCompletes.command deleted
  obtain ⟨ending, _⟩ := HandlerCompletes.done finished
  exact ending.absent (Set.notMem_empty _) served.del

/-- A whole online turn: one of the three outcomes, and no unknown mark. -/
theorem handleOnline_turn {peer : PeerInfo}
    (completes : HandlerCompletes before (handleOnline config serde peer) trace after ()) :
    MarksOnline config peer before.redis trace after.redis ∧
      after.redis.find? (KeyFormat.unknownPeer.key peer.info.peerId) = none := by
  obtain ⟨marking, marked, _, others, markingDone, rest, rfl⟩ := Completes.split completes
  obtain ⟨locating, located, _, settling, locatingDone, settlingDone, rfl⟩ := Completes.split rest
  refine ⟨?_, settleOnline_unmarks settlingDone⟩
  have located := (onlyWrites_locateOnline peer).frame locatingDone
  have settled := (onlyWrites_settleOnline peer).frame settlingDone
  exact ((markOnline_marks markingDone).later (List.subset_append_left _ _) located (by decide)
    (by decide)).later (List.Subset.refl _) settled (by decide) (by decide)

/-- An online turn removes the unknown mark and never stores one. -/
theorem handleOnline_never_marks (peer : PeerInfo) (other : String) :
    (handleOnline config serde peer).Within fun question =>
      question.stores ≠ some (KeyFormat.unknownPeer.key other) := by
  have unmarked : ∀ question : MarciCall, question.writes ≠ some (KeyFormat.unknownPeer.key other) →
      question.stores ≠ some (KeyFormat.unknownPeer.key other) :=
    fun _ unwritten stored => unwritten (MarciCall.writes_of_stores stored)
  refine ((onlyWrites_markOnline peer).implies _ _ (.inl (by decide)) unmarked).andThen fun _ => ?_
  refine ((onlyWrites_locateOnline peer).implies _ _ (.inl (by decide)) unmarked).andThen fun _ => ?_
  refine (within_command (by simp [MarciCall.stores, Command.stores])).andThen fun _ => ?_
  refine ((onlyWrites_setLastSeen _).implies _ _ (.inl (by decide)) unmarked).andThen fun _ => ?_
  exact (within_command (by simp [MarciCall.stores, Command.stores])).andThen fun _ => trivial

theorem handleOnline_unstored {peer : PeerInfo} (other : String)
    (completes : HandlerCompletes before (handleOnline config serde peer) trace after ()) :
    ∀ event ∈ trace, event.question.stores ≠ some (KeyFormat.unknownPeer.key other) :=
  Reaches.permitted (handleOnline_never_marks peer other) completes.reaches

/-- A failed dial stores an unknown mark and the time, nothing else. -/
theorem handleUnknown_stores (peer : NodeMetaInfo) :
    (handleUnknown config peer).Within fun question => ∀ key, question.stores = some key →
      key = KeyFormat.unknownPeer.key peer.peerId ∨ key = KeyFormat.peerSeen.key peer.peerId := by
  refine Program.Within.andThen ((within_getString nofun).andThen fun reply => ?_) fun _ => ?_
  · cases reply with
    | ok version =>
      refine Program.Within.andThen ?_ fun seconds => (within_command nofun).andThen fun _ => trivial
      unfold tryIntoI64
      split <;> trivial
    | error _ =>
      refine (within_unwrapOr (within_send nofun)).andThen fun witnesses => ?_
      split
      · refine (within_command fun key stored => .inl (Option.some.inj stored).symm).andThen fun _ => ?_
        exact (within_command nofun).andThen fun _ => trivial
      · trivial
  · exact ⟨nofun, fun now => within_command fun key stored => .inr (Option.some.inj stored).symm⟩

/-- The three ways a failed dial ends up in the records of its peer, with the
calls that may have stored the unknown mark. -/
inductive MarksUnknown (config : Config) (peerId : String) (before : Store)
    (trace : HandlerTrace) (after : Store) : Prop where
  | kept {entry : Entry}
      (found : before.find? (KeyFormat.onlinePeer.key peerId) = some entry)
      (moved : ∀ kept, after.find? (KeyFormat.onlinePeer.key peerId) = some kept →
        ∃ deadline, SetBetween before after config.ckbNodeDefaultTimeout.toNat deadline ∧
          kept = { entry with deadline := some deadline })
      (frame : before.FadesOutside (recordKeys [.onlinePeer, .peerSeen] peerId) after)
      (unstored : ∀ event ∈ trace, event.question.stores ≠ some (KeyFormat.unknownPeer.key peerId))
  | ignored (missing : after.find? (KeyFormat.onlinePeer.key peerId) = none)
      (frame : before.FadesOutside (recordKeys [.peerSeen] peerId) after)
      (unstored : ∀ event ∈ trace, event.question.stores ≠ some (KeyFormat.unknownPeer.key peerId))
  | promoted (missing : after.find? (KeyFormat.onlinePeer.key peerId) = none)
      (cleared : after.find? (KeyFormat.reachablePeer.key peerId) = none)
      (frame : before.FadesOutside
        (recordKeys [.unknownPeer, .reachablePeer, .peerSeen] peerId) after)
      (stored : ∃ event ∈ trace, event.question.stores = some (KeyFormat.unknownPeer.key peerId))
      (justified : ∀ event ∈ trace,
        event.question.stores = some (KeyFormat.unknownPeer.key peerId) →
        event.before.redis.find? (KeyFormat.onlinePeer.key peerId) = none ∧
          ∃ counted : Store, before.Fades counted ∧ counted.Fades event.before.redis ∧
            config.ckbNodeDefaultWitnesses.toNat ≤
              (counted.members (KeyFormat.reachablePeer.key peerId)).card)

theorem setLastSeen_fades {peerId : String}
    (completes : HandlerCompletes before (setLastSeen peerId) trace after ()) :
    before.redis.FadesOutside (recordKeys [.peerSeen] peerId) after.redis ∧
      ∀ event ∈ trace, event.question.stores ≠ some (KeyFormat.unknownPeer.key peerId) :=
  ⟨(onlyWrites_setLastSeen peerId).frame completes,
    (onlyWrites_setLastSeen peerId).unstored completes _ _ (.inl (by decide))⟩

theorem promoteUnknown_spends {peerId : String}
    (completes : HandlerCompletes before (promoteUnknown config peerId) trace after ()) :
    after.redis.find? (KeyFormat.reachablePeer.key peerId) = none ∧
      (∃ event ∈ trace, event.question.stores = some (KeyFormat.unknownPeer.key peerId)) ∧
      ∀ event ∈ trace, event.question.stores = some (KeyFormat.unknownPeer.key peerId) →
        before.redis.Fades event.before.redis := by
  obtain ⟨_, marked, _, _, setting, deleting, rfl⟩ := Completes.split completes
  obtain ⟨written, rfl, placed⟩ := HandlerCompletes.command setting
  obtain ⟨_, cleared, _, _, deleted, finished, rfl⟩ := Completes.split deleting
  obtain ⟨erased, rfl, served⟩ := HandlerCompletes.command deleted
  obtain ⟨ending, _⟩ := HandlerCompletes.done finished
  obtain ⟨rfl, _, _⟩ := Completes.of_done finished
  refine ⟨ending.absent (Set.notMem_empty _) served.del, ⟨_, List.mem_cons_self, rfl⟩, ?_⟩
  simp only [List.append_nil, List.cons_append, List.nil_append, List.mem_cons, List.not_mem_nil,
    or_false]
  rintro event (rfl | rfl) stored
  · exact placed.earlier
  · cases stored

theorem handleUnknown_turn {peer : NodeMetaInfo}
    (completes : HandlerCompletes before (handleUnknown config peer) trace after ()) :
    MarksUnknown config peer.peerId before.redis trace after.redis := by
  obtain ⟨_, marked, _, _, marking, seeing, rfl⟩ := Completes.split completes
  obtain ⟨seen, unstoredSeen⟩ := setLastSeen_fades seeing
  obtain ⟨_, middle, reply, _, asked, branch, rfl⟩ := Completes.split marking
  obtain ⟨met, _, rfl, earlier, later, read⟩ := HandlerCompletes.getString asked
  have quiet : before.redis.Fades middle.redis := earlier.trans later
  cases reply with
  | ok version =>
    obtain ⟨entry, stored⟩ := Store.found_of_text? read
    have found := earlier.older _ (Set.notMem_empty _) entry stored
    have frame := (quiet.mono (Set.empty_subset _)).trans ((onlyWrites_expireOnline _).frame branch)
    have unstored := (onlyWrites_expireOnline _).unstored branch
      .unknownPeer peer.peerId (.inl (by decide))
    refine .kept found (fun kept located => ?_)
      ((frame.mono (recordKeys_mono (by decide) _)).trans (seen.mono (recordKeys_mono (by decide) _))) ?_
    · obtain ⟨deadline, between, same⟩ := expireOnline_moves quiet found branch kept
        (seen.older _ (by simp) kept located)
      exact ⟨deadline, between.widen (Nat.le_refl _) seen.clock, same⟩
    · simp only [List.mem_append, List.mem_singleton]
      rintro event ((rfl | member) | member)
      · simp [MarciCall.stores, Command.stores]
      · exact unstored event member
      · exact unstoredSeen event member
  | error _ =>
    have missing := later.absent (Set.notMem_empty _) read
    obtain ⟨_, counted, witnesses, _, counting, deciding, rfl⟩ := Completes.split branch
    obtain ⟨_, scarded, same⟩ := HandlerCompletes.unwrapOr counting
    obtain ⟨sent, size, rfl, rfl, served⟩ := HandlerCompletes.send scarded
    subst same
    have counted_after : before.redis.Fades sent.redis ∧ sent.redis.Fades counted.redis := by
      obtain ⟨first, _, _, executed, last⟩ := served
      obtain ⟨rfl, _⟩ := execute_scard executed
      exact ⟨quiet.trans first, last⟩
    have counted_quiet := counted_after.1.trans counted_after.2
    have offline := counted_after.2.absent (Set.notMem_empty _)
      (served.earlier.absent (Set.notMem_empty _) missing)
    split at deciding
    · rename_i enough
      obtain ⟨cleared, stored, spent⟩ := promoteUnknown_spends deciding
      have promoted := (onlyWrites_promoteUnknown _).frame deciding
      have frame : before.redis.FadesOutside
          (recordKeys [.unknownPeer, .reachablePeer, .peerSeen] peer.peerId) after.redis :=
        ((counted_quiet.mono (Set.empty_subset _)).trans
          (promoted.mono (recordKeys_mono (by decide) _))).trans
          (seen.mono (recordKeys_mono (by decide) _))
      refine .promoted (seen.absent (by simp) (promoted.absent (by simp) offline))
        (seen.absent (by simp) cleared) frame ?_ ?_
      · obtain ⟨event, member, same⟩ := stored
        exact ⟨event, by simp [member], same⟩
      · simp only [List.cons_append, List.nil_append, List.mem_cons, List.mem_append]
        rintro event (rfl | rfl | member | member) marks
        · cases marks
        · cases marks
        · have later := spent event member marks
          exact ⟨later.absent (Set.notMem_empty _) offline, sent.redis, counted_after.1,
            counted_after.2.trans later, served.scard ▸ enough⟩
        · exact absurd marks (unstoredSeen event member)
    · rename_i few
      obtain ⟨rfl, _, _⟩ := Completes.of_done deciding
      obtain ⟨ending, _⟩ := HandlerCompletes.done deciding
      have frame := ((counted_quiet.trans ending).mono (Set.empty_subset _)).trans seen
      refine .ignored (seen.absent (by simp) (ending.absent (Set.notMem_empty _) offline)) frame ?_
      simp only [List.append_nil, List.cons_append, List.nil_append, List.mem_cons]
      rintro event (rfl | rfl | member)
      · simp [MarciCall.stores, Command.stores]
      · simp [MarciCall.stores, Command.stores]
      · exact unstoredSeen event member

end CkbDiscovery.Marci
