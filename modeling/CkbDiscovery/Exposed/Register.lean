import CkbDiscovery.Exposed.Index
import CkbDiscovery.Marci.Registry

/-! The listing as a view of the register: what clients are shown depends on the
messages and lapses alone. -/

namespace CkbDiscovery.Exposed

open Effect Redis Marci

variable {F64 : Type} {formats : Formats F64} {config : Config} {serde : Serde} {after : State}
  {turns : List MarciTurn} {store : Store} {now : Nat}

theorem legible_text {key : String}
    (legible : store.Live key → ∃ version, store.text? key = some version) :
    store.Live key ↔ (store.text? key).isSome := by
  constructor
  · intro live
    obtain ⟨version, read⟩ := legible live
    rw [read]
    rfl
  · intro read
    obtain ⟨version, same⟩ := Option.isSome_iff_exists.mp read
    exact Store.live_iff.mpr (Store.found_of_text? same)

/-- The service shows of a peer what its entry in the register says. -/
theorem entryOf_shown (legible : Legible store) (peerId : String) :
    (entryOf store peerId).shown =
      if Shown store peerId then some (reportedVersion store peerId) else none := by
  have online := legible_text (legible.online peerId)
  have online2 := legible_text (legible.online2 peerId)
  rw [PeerEntry.shown]
  simp only [entryOf, Shown, reportedVersion, online, online2]
  cases store.text? (KeyFormat.onlinePeer.key peerId) with
  | some version => simp
  | none =>
    cases store.text? (KeyFormat.online2Peer.key peerId) with
    | some version => simp
    | none => simp

/-- After every run the listing of a network shows each peer that the register
has on it with a status, once, with the version registered. -/
theorem listing_refines (run : MarciRun config serde (.initial now) turns after) (dotless : Dotless turns)
    (dated : ∀ peerId, (seenTimestamp formats after.redis peerId).toNat ≤ formats.lastSecond)
    (order : Enumeration) {network : CKBNetworkType} (supported : network ≠ .dev) :
    ∃ registry peers, RegistryRun config serde (turns.map Turn.message) registry ∧
      getPeersOn formats order after.redis network = some (.ok peers) ∧
      (peers.map Prod.fst).Nodup ∧
      ∀ peerId version, (∃ peer, (peerId, peer) ∈ peers ∧ peer.version = version) ↔
        network ∈ (registry peerId).networks ∧ (registry peerId).shown = some version := by
  have readable := run_readable run dotless dated
  obtain ⟨peers, listed, distinct, complete, entries⟩ := getPeersOn_readable order readable supported
  refine ⟨_, peers, run_refines run, listed, distinct, fun peerId version => ?_⟩
  rw [mem_networks, entryOf_shown readable.legible]
  have versionOf : ∀ {peer : Peer F64}, (peerId, peer) ∈ peers →
      peer.version = reportedVersion after.redis peerId := by
    intro peer member
    obtain ⟨position, same⟩ := entries _ member
    rw [show peer = _ from same]
    rfl
  constructor
  · rintro ⟨peer, member, rfl⟩
    obtain ⟨indexed, shown⟩ := (complete peerId).mp (List.mem_map_of_mem member)
    exact ⟨indexed, by rw [if_pos shown, versionOf member]⟩
  · rintro ⟨indexed, shows⟩
    obtain ⟨shown, same⟩ := Option.ite_none_right_eq_some.mp shows
    obtain ⟨⟨id, peer⟩, member, rfl⟩ := List.mem_map.mp ((complete peerId).mpr ⟨indexed, shown⟩)
    exact ⟨peer, member, (versionOf member).trans (Option.some.inj same)⟩

theorem listing_refines_advertised : ∃ messages registry peers after,
    RegistryRun sampleConfig .unary messages registry ∧
      getPeersOn sampleFormats .sorted after .pudge = some (.ok peers) ∧
      (peers.map Prod.fst).Nodup ∧
      ∀ peerId version, (∃ peer, (peerId, peer) ∈ peers ∧ peer.version = version) ↔
        .pudge ∈ (registry peerId).networks ∧ (registry peerId).shown = some version := by
  have played : (play sampleConfig .unary sampleSurroundings advertisedScript (.initial 0)).any
      fun result => decide (∀ turn ∈ result.1, '.' ∉ turn.message.subject.toList) := by
    decide
  obtain ⟨turns, after, run, dotless⟩ := play_reaches played
  have supported : CKBNetworkType.pudge ≠ .dev := by decide
  obtain ⟨registry, peers, same, listed, distinct, complete⟩ :=
    listing_refines run dotless (sampleFormats_dated after.redis) .sorted supported
  exact ⟨_, registry, peers, _, same, listed, distinct, complete⟩

end CkbDiscovery.Exposed
