import CkbDiscovery.Marci.Ledger
import CkbDiscovery.Marci.Traces

/-! Promotions to unknown: who pays for them, and that no report pays twice. -/

namespace CkbDiscovery.Marci

open Effect Redis

variable {config : Config} {serde : Serde} {before after : State} {trace : HandlerTrace}
  {peerId : String} {turns : List MarciTurn}

/-- What the store looked like when a promotion was decided. -/
structure Justified (config : Config) (peerId : String) (earlier : List MarciTurn)
    (turn : MarciTurn) : Prop where
  message : ∃ peer, turn.message = .unknown peer ∧ peer.peerId = peerId
  decision : ∀ event ∈ turn.trace,
    event.question.stores = some (KeyFormat.unknownPeer.key peerId) →
    ¬ event.before.redis.Live (KeyFormat.onlinePeer.key peerId) ∧
      event.before.redis.members (KeyFormat.reachablePeer.key peerId) =
        distinctReporters peerId (sincePromotion peerId earlier) ∧
      config.ckbNodeDefaultWitnesses.toNat ≤
        (event.before.redis.members (KeyFormat.reachablePeer.key peerId)).card

theorem promotion_justified {message : Message} (ledger : Ledger serde peerId turns before.redis)
    (completes : HandlerCompletes before (handle config serde message) trace after ())
    (promoted : Promotes peerId ⟨message, trace⟩) :
    Justified config peerId turns ⟨message, trace⟩ := by
  obtain ⟨peer, rfl, rfl⟩ := promotes_unknown completes promoted
  refine ⟨⟨peer, rfl, rfl⟩, fun event member stored => ?_⟩
  cases handleUnknown_turn completes with
  | kept found moved frame unstored => exact absurd stored (unstored event member)
  | ignored missing frame unstored => exact absurd stored (unstored event member)
  | promoted missing cleared frame _ justified =>
    obtain ⟨offline, counted, earlier, later, enough⟩ := justified event member stored
    obtain ⟨first, timeless⟩ :=
      (ledger.timeless .reachablePeer (by decide)).members_of_fades earlier (Set.notMem_empty _)
    obtain ⟨second, _⟩ := timeless.members_of_fades later (Set.notMem_empty _)
    refine ⟨Store.not_live_iff.mpr offline, ?_, by rwa [second]⟩
    rw [second, first, ledger.witnesses]

/-- Between two consecutive promotions lie enough distinct reporters. -/
theorem promotion_reporters {between earlier : List MarciTurn}
    {second first : MarciTurn} (justified : Justified config peerId (between ++ first :: earlier) second)
    (promotedSecond : Promotes peerId second) (promotedFirst : Promotes peerId first)
    (none : ∀ turn ∈ between, ¬ Promotes peerId turn) :
    config.ckbNodeDefaultWitnesses.toNat ≤ (distinctReporters peerId between).card := by
  obtain ⟨event, member, stored⟩ := promotedSecond
  obtain ⟨_, same, enough⟩ := justified.decision event member stored
  have window : sincePromotion peerId (between ++ first :: earlier) = between := by
    rw [sincePromotion, List.takeWhile_append_of_pos (by simpa using none)]
    simp [promotedFirst]
  rwa [same, window] at enough

/-- The witness set is exactly the set of distinct reporters since the last
promotion; a promotion is a failed dial of an offline peer with enough of them,
and it empties the set, so no report serves two promotions. -/
theorem witness_accounting (run : MarciRun config serde (.initial now) turns after)
    (peerId : String) :
    after.redis.members (KeyFormat.reachablePeer.key peerId) =
        distinctReporters peerId (sincePromotion peerId turns) ∧
      (∀ later turn earlier, turns = later ++ turn :: earlier → Promotes peerId turn →
        Justified config peerId earlier turn ∧
          ∃ emptied, MarciRun config serde (.initial now) (turn :: earlier) emptied ∧
            MarciRun config serde emptied later after ∧
            emptied.redis.members (KeyFormat.reachablePeer.key peerId) = ∅) ∧
      ∀ later second between first earlier,
        turns = later ++ second :: (between ++ first :: earlier) →
        Promotes peerId second → Promotes peerId first →
        (∀ turn ∈ between, ¬ Promotes peerId turn) →
        config.ckbNodeDefaultWitnesses.toNat ≤ (distinctReporters peerId between).card := by
  have each : ∀ later turn earlier, turns = later ++ turn :: earlier → Promotes peerId turn →
      Justified config peerId earlier turn ∧
        ∃ emptied, MarciRun config serde (.initial now) (turn :: earlier) emptied ∧
          MarciRun config serde emptied later after ∧
          emptied.redis.members (KeyFormat.reachablePeer.key peerId) = ∅ := by
    intro later turn earlier split promoted
    subst split
    obtain ⟨emptied, upTo, rest⟩ := Run.split run
    have empty := (run_ledger upTo peerId).witnesses
    cases upTo with
    | turn before completes =>
      refine ⟨promotion_justified (run_ledger before peerId) completes promoted, emptied,
        .turn before completes, rest, ?_⟩
      rw [empty]
      simp [sincePromotion, promoted, distinctReporters, reports]
  refine ⟨(run_ledger run peerId).witnesses, each, ?_⟩
  intro later second between first earlier split promotedSecond promotedFirst none
  exact promotion_reporters (each later second _ split promotedSecond).1 promotedSecond
    promotedFirst none

/-- An unknown mark was stored by a promotion, and that was justified. -/
theorem run_marked (run : MarciRun config serde (.initial now) turns after) :
    after.redis.Live (KeyFormat.unknownPeer.key peerId) →
      ∃ later turn earlier, turns = later ++ turn :: earlier ∧ Promotes peerId turn ∧
        Justified config peerId earlier turn := by
  induction run with
  | start => nofun
  | @turn turns before message trace after earlier completes inductionHypothesis =>
    intro live
    by_cases promoted : Promotes peerId ⟨message, trace⟩
    · exact ⟨[], _, turns, rfl, promoted, promotion_justified (run_ledger earlier peerId) completes promoted⟩
    · have unstored : ∀ event ∈ trace, event.question.stores ≠ some (KeyFormat.unknownPeer.key peerId) :=
        fun event member stored => promoted ⟨event, member, stored⟩
      obtain ⟨later, turn, sofar, rfl, justified⟩ :=
        inductionHypothesis (live_along completes.reaches.path unstored live)
      exact ⟨_ :: later, turn, sofar, rfl, justified⟩

/-- Two reports by one reporter, each spent on a promotion of its own. -/
def twicePromotedScript : List (Nat × Message) :=
  [(0, .reachable ⟨⟨"Qm", [], .mirana⟩, ⟨"Qr", [], .mirana⟩⟩), (5, .unknown ⟨"Qm", [], .mirana⟩),
    (9, .reachable ⟨⟨"Qm", [], .mirana⟩, ⟨"Qr", [], .mirana⟩⟩), (5, .unknown ⟨"Qm", [], .mirana⟩)]

theorem witness_accounting_twice : ∃ turns after,
    play sampleConfig .unary sampleSurroundings twicePromotedScript (.initial 0) =
        some (turns, after) ∧
      turns.countP (fun turn => Promotes "Qm" turn) = 2 ∧
      after.redis.members (KeyFormat.reachablePeer.key "Qm") =
        distinctReporters "Qm" (sincePromotion "Qm" turns) := by
  have played : (play sampleConfig .unary sampleSurroundings twicePromotedScript
      (.initial 0)).map (fun result => result.1.countP fun turn => Promotes "Qm" turn) = some 2 := by
    decide
  obtain ⟨⟨turns, after⟩, same, twice⟩ := Option.map_eq_some_iff.mp played
  exact ⟨turns, after, same, twice, (witness_accounting (play_run same) "Qm").1⟩

end CkbDiscovery.Marci
