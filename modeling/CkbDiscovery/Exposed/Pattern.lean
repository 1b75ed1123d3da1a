import CkbDiscovery.Exposed.Agreement

/-! The id of a status query is a pattern to `KEYS` and a text to `GET`. -/

namespace CkbDiscovery.Exposed

open Effect Redis Marci

variable {F64 : Type} {formats : Formats F64} {store : Store} {peerId : String}

/-- The records that put a peer on the map, in the order `peer_in_map` tries them. -/
def statusFormats : List KeyFormat := [.onlinePeer, .online2Peer, .unknownPeer]

/-- The first kind of status record that is found. -/
def decisive (found : KeyFormat → Prop) [DecidablePred found] : Option KeyFormat :=
  statusFormats.find? fun format => found format

/-- The kind of record that the patterns made of an id come to first. -/
def askedFormat (store : Store) (peerId : String) : Option KeyFormat :=
  decisive fun format => Hit store format peerId

/-- The kind of record that the id itself has first. -/
def ownFormat (store : Store) (peerId : String) : Option KeyFormat :=
  decisive fun format => store.Live (format.key peerId)

/-- An answer that is about the id asked for. -/
structure Truthful (store : Store) (peerId : String) (answer : PeerStatus F64) : Prop where
  onMap : answer.inMap = true ↔ Shown store peerId
  version : Shown store peerId → answer.info.map (fun info => (info.version, info.versionShort)) =
    some (reportedVersion store peerId, reportedVersionShort store peerId)

/-- The patterns come to the same kind of record as the id itself, or both to
online records in which the same text is read. -/
def AsksForItself (store : Store) (peerId : String) : Prop :=
  askedFormat store peerId = ownFormat store peerId ∨
    ∃ asked own, askedFormat store peerId = some asked ∧ ownFormat store peerId = some own ∧
      asked ≠ .unknownPeer ∧ own ≠ .unknownPeer ∧
        recordText store asked peerId = recordText store own peerId

/-- What a branch of `peer_in_map` makes of the records of the id. -/
def branchVersions (store : Store) (peerId : String) (format : KeyFormat) : String × String :=
  if format = .unknownPeer then ("", "Unknown")
  else (recordText store format peerId, versionShort (recordText store format peerId))

theorem decisive_cases (found : KeyFormat → Prop) [DecidablePred found] :
    (found .onlinePeer ∧ decisive found = some .onlinePeer) ∨
    (¬ found .onlinePeer ∧ found .online2Peer ∧ decisive found = some .online2Peer) ∨
    (¬ found .onlinePeer ∧ ¬ found .online2Peer ∧ found .unknownPeer ∧
      decisive found = some .unknownPeer) ∨
    (¬ found .onlinePeer ∧ ¬ found .online2Peer ∧ ¬ found .unknownPeer ∧ decisive found = none) := by
  by_cases online : found .onlinePeer <;> by_cases online2 : found .online2Peer <;>
    by_cases unknown : found .unknownPeer <;>
    simp [decisive, statusFormats, online, online2, unknown]

theorem own_shown : (ownFormat store peerId).isSome ↔ Shown store peerId := by
  rcases decisive_cases fun format => store.Live (format.key peerId) with
    ⟨online, same⟩ | ⟨_, online2, same⟩ | ⟨_, _, unknown, same⟩ | ⟨online, online2, unknown, same⟩ <;>
    simp_all [ownFormat, Shown]

/-- What the listing would show is what the branch of the id's own record makes. -/
theorem own_versions {format : KeyFormat} (own : ownFormat store peerId = some format) :
    (reportedVersion store peerId, reportedVersionShort store peerId) =
      branchVersions store peerId format := by
  rcases decisive_cases fun format => store.Live (format.key peerId) with
    ⟨online, same⟩ | ⟨online, online2, same⟩ | ⟨online, online2, unknown, same⟩ | ⟨_, _, _, same⟩
  · obtain rfl := Option.some.inj (same.symm.trans own)
    simp [branchVersions, reportedVersion, reportedVersionShort, recordText, online]
  · obtain rfl := Option.some.inj (same.symm.trans own)
    simp [branchVersions, reportedVersion, reportedVersionShort, recordText, online, online2]
  · obtain rfl := Option.some.inj (same.symm.trans own)
    simp [branchVersions, reportedVersion, reportedVersionShort, online, online2]
  · cases same.symm.trans own

/-- The patterns decide which branch is taken. -/
theorem statusAnswer_eq (formats : Formats F64) (store : Store) (peerId : String) :
    statusAnswer formats store peerId = (askedFormat store peerId).elim (some ⟨peerId, false, none⟩)
      fun format => statusEntry formats store (branchVersions store peerId format).1
        (branchVersions store peerId format).2 peerId := by
  rcases decisive_cases fun format => Hit store format peerId with
    ⟨online, same⟩ | ⟨online, online2, same⟩ | ⟨online, online2, unknown, same⟩ |
      ⟨online, online2, unknown, same⟩ <;>
    simp [statusAnswer, askedFormat, branchVersions, *]

/-- No version makes an online peer look like an unknown one. -/
theorem version_known (version : String) : (version, versionShort version) ≠ ("", "Unknown") := by
  intro same
  obtain ⟨rfl, short⟩ := Prod.mk.inj same
  revert short
  decide

theorem branchVersions_eq {asked own : KeyFormat} (askedStatus : asked ∈ statusFormats)
    (ownStatus : own ∈ statusFormats) :
    branchVersions store peerId asked = branchVersions store peerId own ↔
      asked = own ∨ asked ≠ .unknownPeer ∧ own ≠ .unknownPeer ∧
        recordText store asked peerId = recordText store own peerId := by
  by_cases askedUnknown : asked = .unknownPeer <;> by_cases ownUnknown : own = .unknownPeer
  · simp [askedUnknown, ownUnknown]
  · subst askedUnknown
    simp only [branchVersions, if_neg ownUnknown, if_true, ne_eq, not_true, false_and, or_false]
    exact iff_of_false (version_known _).symm fun same => ownUnknown same.symm
  · subst ownUnknown
    simp only [branchVersions, if_neg askedUnknown, if_true, ne_eq, not_true, false_and, and_false, or_false]
    exact iff_of_false (version_known _) askedUnknown
  · rw [branchVersions, if_neg askedUnknown, branchVersions, if_neg ownUnknown, Prod.mk.injEq]
    constructor
    · intro same
      exact .inr ⟨askedUnknown, ownUnknown, same.1⟩
    · intro given
      rcases given with rfl | ⟨_, _, same⟩
      · exact ⟨rfl, rfl⟩
      · exact ⟨same, congrArg versionShort same⟩

theorem decisive_mem {found : KeyFormat → Prop} [DecidablePred found] {format : KeyFormat}
    (first : decisive found = some format) : format ∈ statusFormats :=
  List.mem_of_find?_eq_some first

/-- An answer is what the branch that the patterns come to makes of the records. -/
theorem answered_asked {answer : PeerStatus F64} (answered : statusAnswer formats store peerId = some answer) :
    answer.inMap = (askedFormat store peerId).isSome ∧
      answer.info.map (fun info => (info.version, info.versionShort)) =
        (askedFormat store peerId).map (branchVersions store peerId) := by
  rw [statusAnswer_eq] at answered
  cases asked : askedFormat store peerId with
  | none =>
    rw [asked] at answered
    cases answered
    exact ⟨rfl, rfl⟩
  | some format =>
    rw [asked, Option.elim_some, statusEntry] at answered
    split at answered
    · cases answered
      exact ⟨rfl, rfl⟩
    · cases answered

theorem truthful_iff {answer : PeerStatus F64} (answered : statusAnswer formats store peerId = some answer) :
    Truthful store peerId answer ↔
      (askedFormat store peerId).map (branchVersions store peerId) =
        (ownFormat store peerId).map (branchVersions store peerId) := by
  obtain ⟨inMap, versions⟩ := answered_asked answered
  constructor
  · intro truthful
    cases own : ownFormat store peerId with
    | none =>
      have hidden : ¬ Shown store peerId := by
        rw [← own_shown, own]
        exact Bool.false_ne_true
      have unasked : (askedFormat store peerId).isSome = false := by
        rw [← inMap, Bool.eq_false_iff, ne_eq, truthful.onMap]
        exact hidden
      rw [Option.isNone_iff_eq_none.mp (Option.isSome_eq_false_iff.mp unasked)]
    | some format =>
      have shown : Shown store peerId := own_shown.mp (by rw [own]; rfl)
      rw [← versions, truthful.version shown, own_versions own]
      rfl
  · intro same
    have present : (askedFormat store peerId).isSome = (ownFormat store peerId).isSome := by
      rw [← Option.isSome_map, same, Option.isSome_map]
    constructor
    · rw [inMap, present]
      exact own_shown
    · intro shown
      obtain ⟨format, own⟩ := Option.isSome_iff_exists.mp (own_shown.mpr shown)
      rw [versions, same, own, own_versions own]
      rfl

theorem asksForItself_iff : AsksForItself store peerId ↔
    (askedFormat store peerId).map (branchVersions store peerId) =
      (ownFormat store peerId).map (branchVersions store peerId) := by
  constructor
  · intro asks
    rcases asks with same | ⟨asked, own, askedFirst, ownFirst, askedOnline, ownOnline, text⟩
    · rw [same]
    · rw [askedFirst, ownFirst, Option.map_some, Option.map_some,
        (branchVersions_eq (decisive_mem askedFirst) (decisive_mem ownFirst)).mpr
          (.inr ⟨askedOnline, ownOnline, text⟩)]
  · intro same
    cases askedFirst : askedFormat store peerId with
    | none =>
      rw [askedFirst] at same
      exact .inl (askedFirst.trans (Option.map_eq_none_iff.mp same.symm).symm)
    | some asked =>
      rw [askedFirst] at same
      obtain ⟨own, ownFirst, versions⟩ := Option.map_eq_some_iff.mp same.symm
      rcases (branchVersions_eq (decisive_mem askedFirst) (decisive_mem ownFirst)).mp versions.symm with
        rfl | ⟨askedOnline, ownOnline, text⟩
      · exact .inl (askedFirst.trans ownFirst.symm)
      · exact .inr ⟨asked, own, askedFirst, ownFirst, askedOnline, ownOnline, text⟩

/-- An id without metacharacters asks for itself. -/
theorem asksForItself_plain (plain : PlainText peerId) : AsksForItself store peerId := by
  have same (format : KeyFormat) : Hit store format peerId ↔ store.Live (format.key peerId) :=
    hit_plain (plainText_key plain format)
  left
  simp only [askedFormat, ownFormat, same]

/-- There is no answer only for want of a date. -/
theorem peerInMapOn_none (formats : Formats F64) (order : Enumeration) (store : Store) (peerId : String) :
    peerInMapOn formats order store peerId = none ↔
      (askedFormat store peerId).isSome ∧ ¬ Dated formats store peerId := by
  rw [peerInMapOn_eq, statusAnswer_eq]
  cases asked : askedFormat store peerId with
  | none => simp
  | some format => simp [statusEntry]

/-- An answer is about the id asked for exactly if the patterns come to its own
record; without metacharacters they do. There is none only for want of a date. -/
theorem status_about_asked (formats : Formats F64) (order : Enumeration) (store : Store)
    (peerId : String) :
    (peerInMapOn formats order store peerId = none ↔
      (askedFormat store peerId).isSome ∧ ¬ Dated formats store peerId) ∧
    (∀ answer, peerInMapOn formats order store peerId = some answer →
      (Truthful store peerId answer ↔ AsksForItself store peerId)) ∧
    (PlainText peerId → AsksForItself store peerId) := by
  refine ⟨peerInMapOn_none formats order store peerId, ?_, asksForItself_plain⟩
  intro answer answered
  rw [peerInMapOn_eq] at answered
  exact (truthful_iff answered).trans asksForItself_iff.symm

/-- Asked about a star, the reader answers that it is on the map as soon as
anybody is. -/
theorem star_on_map : ∃ turns after answer,
    MarciRun sampleConfig .unary (.initial 0) turns after ∧
      peerInMapOn sampleFormats .sorted after.redis "*" = some answer ∧
      answer.inMap = true ∧ ¬ Shown after.redis "*" := by
  have played : (play sampleConfig .unary sampleSurroundings advertisedScript (.initial 0)).any
      fun result => decide (
        (peerInMapOn sampleFormats .sorted result.2.redis "*").any PeerStatus.inMap ∧
        ¬ Shown result.2.redis "*") := by
    decide
  obtain ⟨turns, after, run, answered, hidden⟩ := play_reaches played
  obtain ⟨answer, same, onMap⟩ := (Option.any_eq_true _ _).mp answered
  exact ⟨turns, after, answer, run, same, onMap, hidden⟩

end CkbDiscovery.Exposed
