import CkbDiscovery.Redis.Affix
import CkbDiscovery.Types

/-! The key formats of Marci's store. Every record about a peer sits under a
key that spells the peer's id between two fixed texts. -/

namespace CkbDiscovery.Marci

open Redis

/-- `str::to_lowercase` on ASCII text. -/
def toLowercase (text : String) : String := String.ofList (text.toList.map Char.toLower)

inductive KeyFormat where
  | onlinePeer
  | online2Peer
  | onlineIp
  | reachablePeer
  | unknownPeer
  | peerSeen
  | peerIp
  | peerCountry
  | peerCity
  | peerRegion
  | peerFull
  | peerPos
  | peerNetwork
  | peerNetworkQuick (network : CKBNetworkType)
  deriving DecidableEq

namespace KeyFormat

def affix : KeyFormat → Affix
  | onlinePeer => ⟨"peer.online.", ""⟩
  | online2Peer => ⟨"peer.online2.", ""⟩
  | onlineIp => ⟨"online.", ".ip"⟩
  | reachablePeer => ⟨"peer.reachable.", ""⟩
  | unknownPeer => ⟨"peer.unknown.", ""⟩
  | peerSeen => ⟨"peer_info.", ".last_seen"⟩
  | peerIp => ⟨"peer_info.", ".ip"⟩
  | peerCountry => ⟨"peer_info.", ".country"⟩
  | peerCity => ⟨"peer_info.", ".city"⟩
  | peerRegion => ⟨"peer_info.", ".region"⟩
  | peerFull => ⟨"peer_info.", ".full"⟩
  | peerPos => ⟨"peer_info.", ".pos"⟩
  | peerNetwork => ⟨"peer_info.", ".network"⟩
  | peerNetworkQuick network => ⟨"network.peer.", "." ++ toLowercase network.intoStr⟩

def key (format : KeyFormat) (peerId : String) : String := format.affix.key peerId

def all : List KeyFormat :=
  [onlinePeer, online2Peer, onlineIp, reachablePeer, unknownPeer, peerSeen, peerIp, peerCountry,
    peerCity, peerRegion, peerFull, peerPos, peerNetwork, peerNetworkQuick .mirana,
    peerNetworkQuick .pudge, peerNetworkQuick .dev]

theorem mem_all (format : KeyFormat) : format ∈ all := by
  cases format with
  | peerNetworkQuick network => cases network <;> decide
  | _ => decide

theorem affix_separated (first second : KeyFormat) (different : first ≠ second) :
    first.affix.Separated second.affix := by
  have pairs : ∀ left ∈ all, ∀ right ∈ all, left ≠ right → left.affix.Separated right.affix := by
    decide
  exact pairs first (mem_all first) second (mem_all second) different

/-- No two formats ever meet on a key, whatever the peer ids. -/
@[simp] theorem key_eq_key {first second : KeyFormat} {left right : String} :
    first.key left = second.key right ↔ first = second ∧ left = right := by
  constructor
  · intro same
    by_cases format : first = second
    · subst second
      exact ⟨rfl, first.affix.key_injective same⟩
    · exact absurd same ((affix_separated first second format).key_ne left right)
  · intro given
    obtain ⟨rfl, rfl⟩ := given
    rfl

end KeyFormat

def serviceLastUpdateKey : String := "service.last_update"

theorem key_ne_serviceLastUpdate (format : KeyFormat) (peerId : String) :
    format.key peerId ≠ serviceLastUpdateKey := by
  have separated : ∀ known ∈ KeyFormat.all, known.affix.Separated ⟨serviceLastUpdateKey, ""⟩ := by
    decide
  have spelled : serviceLastUpdateKey = Affix.key ⟨serviceLastUpdateKey, ""⟩ "" := by decide
  rw [spelled]
  exact (separated format format.mem_all).key_ne peerId ""

example : KeyFormat.peerCity.key "Qm" = "peer_info.Qm.city" := by decide

end CkbDiscovery.Marci
