import CkbDiscovery.Marci.Status

/-! A peer is never online and unknown at once. -/

namespace CkbDiscovery.Marci

open Effect Redis

variable {config : Config} {serde : Serde} {before after : State} {trace : HandlerTrace}

def Exclusive (store : Store) (peerId : String) : Prop :=
  ¬ (store.Live (KeyFormat.onlinePeer.key peerId) ∧ store.Live (KeyFormat.unknownPeer.key peerId))

/-- Losing records cannot make a peer both online and unknown. -/
theorem Exclusive.fade {earlier later : Store} {formats : List KeyFormat} {subject peerId : String}
    (exclusive : Exclusive earlier peerId)
    (fades : earlier.FadesOutside (recordKeys formats subject) later)
    (outside : peerId ≠ subject ∨ .onlinePeer ∉ formats ∧ .unknownPeer ∉ formats) :
    Exclusive later peerId := by
  intro given
  obtain ⟨online, unknown⟩ := given
  refine exclusive ⟨fades.live_before ?_ online, fades.live_before ?_ unknown⟩
  all_goals
    rw [mem_recordKeys]
    intro given
    obtain ⟨member, same⟩ := given
    rcases outside with different | ⟨notOnline, notUnknown⟩
    · exact different same
    · first | exact notOnline member | exact notUnknown member

theorem exclusive_of_offline {store : Store} {peerId : String}
    (missing : store.find? (KeyFormat.onlinePeer.key peerId) = none) : Exclusive store peerId :=
  fun both => Store.not_live_iff.mpr missing both.1

theorem MarksUnknown.exclusive {peerId : String} {earlier later : Store}
    (marks : MarksUnknown config peerId earlier trace later) (exclusive : Exclusive earlier peerId) :
    Exclusive later peerId := by
  cases marks with
  | kept found moved frame unstored =>
    intro given
    obtain ⟨online, unknown⟩ := given
    exact exclusive ⟨Store.live_iff.mpr ⟨_, found⟩, frame.live_before (by simp) unknown⟩
  | ignored missing frame unstored => exact exclusive_of_offline missing
  | promoted missing cleared frame stored justified => exact exclusive_of_offline missing

/-- One turn, whatever it takes up, keeps every peer exclusive. -/
theorem turn_exclusive {message : Message} {peerId : String}
    (completes : HandlerCompletes before (handle config serde message) trace after ())
    (exclusive : Exclusive before.redis peerId) : Exclusive after.redis peerId := by
  have frame := (onlyWrites_handle message).frame completes
  by_cases subject : peerId = message.subject
  · cases message with
    | online peer =>
      subst subject
      obtain ⟨_, unmarked⟩ := handleOnline_turn completes
      exact fun both => Store.not_live_iff.mpr unmarked both.2
    | unknown peer =>
      subst subject
      exact (handleUnknown_turn completes).exclusive exclusive
    | reachable peer => exact exclusive.fade frame (.inr (by simp [Message.formats]))
    | tick => exact exclusive.fade frame (.inr (by simp [Message.formats]))
  · exact exclusive.fade frame (.inl subject)

/-- Whatever messages arrive and whenever keys expire, no peer has a live
online record and a live unknown mark after a completed turn. -/
theorem run_exclusive (run : MarciRun config serde start turns after)
    (initially : ∀ peerId, Exclusive start.redis peerId) :
    ∀ peerId, Exclusive after.redis peerId :=
  run.keeps (fun _ state => ∀ peerId, Exclusive state.redis peerId) initially
    fun _ kept completes peerId => turn_exclusive completes (kept peerId)

/-- A peer is reported, fails a dial, is marked unknown and then comes online. -/
def comebackScript : List (Nat × Message) :=
  [(0, .reachable ⟨⟨"Qm", [], .mirana⟩, ⟨"Qr", [], .mirana⟩⟩),
    (5, .unknown ⟨"Qm", [], .mirana⟩),
    (7, .online ⟨⟨"Qm", [], .mirana⟩, "0.1", true, false⟩)]

theorem run_exclusive_comeback : ∃ turns after,
    play sampleConfig .unary sampleSurroundings comebackScript (.initial 0) = some (turns, after) ∧
      ∀ peerId, Exclusive after.redis peerId := by
  have played : (play sampleConfig .unary sampleSurroundings comebackScript (.initial 0)).isSome := by
    decide
  obtain ⟨⟨turns, after⟩, same⟩ := Option.isSome_iff_exists.mp played
  refine ⟨turns, after, same, run_exclusive (play_run same) fun peerId => ?_⟩
  exact exclusive_of_offline rfl

end CkbDiscovery.Marci
