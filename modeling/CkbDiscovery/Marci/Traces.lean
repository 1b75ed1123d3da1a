import CkbDiscovery.Marci.Footprint

/-! What the calls of a trace do to a single record, whether the handler that
made them finished or was cut short. -/

namespace CkbDiscovery.Marci

open Effect Redis

variable {config : Config} {serde : Serde} {before after : State} {trace : HandlerTrace}
  {key peerId : String}

/-- A key that no call of the trace writes is left to time. -/
theorem frame_along (path : Path world before trace after)
    (unwritten : ∀ event ∈ trace, event.question.writes ≠ some key) :
    before.redis.FadesOutside {other | other ≠ key} after.redis := by
  refine path.relates (fun earlier later : State =>
    earlier.redis.FadesOutside {other | other ≠ key} later.redis) (fun state => .refl _ _)
    (fun first last => first.trans last) ?_ ?_ unwritten
  · intro earlier later drifts
    exact (drift_fades (.single drifts)).mono (Set.empty_subset _)
  · intro event replied free answered
    obtain ⟨asked, question, reply⟩ := event
    change Answers asked question reply replied at answered
    cases answered with
    | redis executed =>
      exact (execute_frame executed).mono fun other written same => free (same ▸ written)
    | _ => exact .refl _ _

/-- A key under which no call of the trace stores anything was already live. -/
theorem live_along (path : Path world before trace after)
    (unstored : ∀ event ∈ trace, event.question.stores ≠ some key)
    (live : after.redis.Live key) : before.redis.Live key := by
  refine path.relates (fun earlier later : State => later.redis.Live key → earlier.redis.Live key)
    (fun _ live => live) (fun first last live => first (last live)) ?_ ?_ unstored live
  · intro earlier later drifts
    exact (drift_fades (.single drifts)).live_before (Set.notMem_empty _)
  · intro event replied free answered
    obtain ⟨asked, question, reply⟩ := event
    change Answers asked question reply replied at answered
    cases answered with
    | redis executed => exact execute_live_before executed free
    | _ => exact id

/-- A call of the trace that left the value under the key. -/
def Placed (key : String) (value : Value) (event : Event State MarciCall.Reply) : Prop :=
  event.question.stores = some key ∧ ∃ replied entry,
    world.answers event.before event.question event.reply replied ∧
      replied.redis.find? key = some entry ∧ entry.value = value

/-- A value under a key was there before or a call of the trace has placed it. -/
theorem value_along (path : Path world before trace after) {entry : Entry}
    (found : after.redis.find? key = some entry) :
    (∃ old, before.redis.find? key = some old ∧ old.value = entry.value) ∨
      ∃ event ∈ trace, Placed key entry.value event := by
  have quietly : ∀ {earlier later : State} {kept : Entry},
      Relation.ReflTransGen world.drifts earlier later →
      later.redis.find? key = some kept → earlier.redis.find? key = some kept :=
    fun quiet located => (drift_fades quiet).older key (Set.notMem_empty _) _ located
  induction path with
  | here quiet => exact .inl ⟨entry, quietly quiet found, rfl⟩
  | @ask _ asked question reply replied _ _ quiet answered _ inductionHypothesis =>
    rcases inductionHypothesis found with ⟨old, held, same⟩ | ⟨event, member, placed⟩
    · by_cases stored : question.stores = some key
      · exact .inr ⟨_, List.mem_cons_self, stored, replied, old, answered, held, same⟩
      · left
        change Answers asked question reply replied at answered
        cases answered with
        | redis executed =>
          obtain ⟨older, earlier, equal⟩ := execute_value_before executed stored held
          exact ⟨older, quietly quiet earlier, equal.trans same⟩
        | _ => exact ⟨old, quietly quiet held, same⟩
    · exact .inr ⟨event, List.mem_cons_of_mem _ member, placed⟩

/-- A key that is deleted on the way and never stored again is gone at the end. -/
theorem deleted_along (path : Path world before trace after)
    (unstored : ∀ event ∈ trace, event.question.stores ≠ some key)
    (deleted : ∃ event ∈ trace, event.question = .redis (.del key)) : ¬ after.redis.Live key := by
  obtain ⟨⟨asked, question, reply⟩, member, same⟩ := deleted
  obtain ⟨first, last, replied, rfl, _, answered, onward⟩ := path.through member
  obtain rfl : question = .redis (.del key) := same
  intro live
  have lasting := live_along onward
    (fun event further => unstored event (by simp [further])) live
  cases answered with
  | redis executed => exact Store.not_live_iff.mpr (execute_del executed) lasting

/-- The process's cache grows by what the trace put into it. -/
theorem cache_along {stored : IpDetails → Prop} (path : Path world before trace after)
    (cached : ∀ event ∈ trace, ∀ ip details, event.question = .cacheIpinfo ip details → stored details) :
    ∀ ip details, after.ipinfoCache.lookup ip = some details →
      before.ipinfoCache.lookup ip = some details ∨ stored details := by
  refine path.relates (fun earlier later : State => ∀ ip details,
    later.ipinfoCache.lookup ip = some details →
      earlier.ipinfoCache.lookup ip = some details ∨ stored details)
    (fun _ _ _ found => .inl found) ?_ ?_ ?_ cached
  · intro first second third earlier later ip details found
    rcases later ip details found with before | fresh
    · exact earlier ip details before
    · exact .inr fresh
  · intro earlier later drifts ip details found
    cases drifts with
    | redis _ => exact .inl found
  · intro event replied allowed answered ip details found
    obtain ⟨asked, question, reply⟩ := event
    change Answers asked question reply replied at answered
    cases answered with
    | @cacheIpinfo _ other fresh =>
      by_cases same : ip = other
      · subst same
        rw [Finmap.lookup_insert] at found
        obtain rfl := Option.some.inj found
        exact .inr (allowed _ _ rfl)
      · rw [Finmap.lookup_insert_of_ne _ same] at found
        exact .inl found
    | _ => exact .inl found

/-- The call writes the key, if at all, by a plain `SET`. -/
def MarciCall.Fixes (key : String) (question : MarciCall) : Prop :=
  question.writes = some key → ∃ value, question = .redis (.set key value)

theorem fixes_set (key other value : String) : (MarciCall.redis (.set other value)).Fixes key :=
  fun written => ⟨value, by rw [← Option.some.inj written]⟩

theorem fixes_unwritten {question : MarciCall} (free : question.writes ≠ some key) :
    question.Fixes key :=
  fun written => absurd written free

/-- A key that is only ever `SET` keeps its entry or ends with a text that was `SET`. -/
theorem fixed_along (path : Path world before trace after) (timeless : Timeless before.redis key)
    (fixes : ∀ event ∈ trace, event.question.Fixes key) :
    ((∀ event ∈ trace, event.question.writes ≠ some key) ∧
        after.redis.find? key = before.redis.find? key) ∨
      ∃ event ∈ trace, ∃ value, event.question = .redis (.set key value) ∧
        after.redis.find? key = some ⟨.text value, none⟩ := by
  induction path with
  | here quiet =>
    exact .inl ⟨by simp, timeless.unchanged (drift_fades quiet) (Set.notMem_empty _)⟩
  | @ask before asked question reply replied trace after quiet answered rest inductionHypothesis =>
    have others : ∀ event ∈ trace, event.question.Fixes key :=
      fun event member => fixes event (List.mem_cons_of_mem _ member)
    have same := timeless.unchanged (drift_fades quiet) (Set.notMem_empty _)
    have askedTimeless := timeless.of_same same
    by_cases written : question.writes = some key
    · obtain ⟨value, rfl⟩ := fixes _ List.mem_cons_self written
      have placed : replied.redis.find? key = some ⟨.text value, none⟩ := by
        cases answered with
        | redis executed => exact execute_set executed
      rcases inductionHypothesis (timeless_of_found placed) others with ⟨_, kept⟩ | ⟨event, member, further⟩
      · exact .inr ⟨_, List.mem_cons_self, value, rfl, kept.trans placed⟩
      · exact .inr ⟨event, List.mem_cons_of_mem _ member, further⟩
    · have untouched : replied.redis.find? key = asked.redis.find? key := by
        cases answered with
        | redis executed => exact (execute_exact executed).2 key written
        | _ => rfl
      have repliedTimeless := askedTimeless.of_same untouched
      rcases inductionHypothesis repliedTimeless others with ⟨free, kept⟩ | ⟨event, member, further⟩
      · refine .inl ⟨?_, kept.trans (untouched.trans same)⟩
        rintro event (_ | ⟨_, member⟩)
        · exact written
        · exact free event member
      · exact .inr ⟨event, List.mem_cons_of_mem _ member, further⟩

theorem timeless_along (path : Path world before trace after) (timeless : Timeless before.redis key)
    (fixes : ∀ event ∈ trace, event.question.Fixes key) : Timeless after.redis key := by
  rcases fixed_along path timeless fixes with ⟨_, same⟩ | ⟨_, _, value, _, placed⟩
  · exact timeless.of_same same
  · exact timeless_of_found placed

/-- A key that is `SET` to one text only, and is `SET`, ends with this text. -/
theorem set_along {value : String} (path : Path world before trace after)
    (timeless : Timeless before.redis key)
    (single : ∀ event ∈ trace, event.question.writes = some key →
      event.question = .redis (.set key value))
    (placed : ∃ event ∈ trace, event.question = .redis (.set key value)) :
    after.redis.find? key = some ⟨.text value, none⟩ := by
  have fixes : ∀ event ∈ trace, event.question.Fixes key :=
    fun event member written => ⟨value, single event member written⟩
  rcases fixed_along path timeless fixes with ⟨free, _⟩ | ⟨event, member, other, same, found⟩
  · obtain ⟨event, member, same⟩ := placed
    exact absurd (congrArg MarciCall.writes same) (free event member)
  · have expected := single event member (congrArg MarciCall.writes same)
    have texts : other = value := by
      rw [same] at expected
      injection expected with command
      injection command
    rw [found, texts]

/-- The records of a peer that stay until they are `SET` again. -/
def fixedFormats : List KeyFormat := .peerNetwork :: locationFormats

theorem fixes_setIpDetails (subject : String) (ip : IpDetails) :
    (setIpDetails subject ip).Within (MarciCall.Fixes key) :=
  (within_command (fixes_set _ _ _)).andThen fun _ =>
  (within_command (fixes_set _ _ _)).andThen fun _ =>
  (within_command (fixes_set _ _ _)).andThen fun _ => within_command (fixes_set _ _ _)

theorem OnlyWrites.fixes {formats : List KeyFormat} {subject : String} {handler : Handler α}
    (only : OnlyWrites broadcasts formats subject handler) (format : KeyFormat) (peerId : String)
    (outside : format ∉ formats) : handler.Within (MarciCall.Fixes (format.key peerId)) :=
  only.implies format peerId (.inl outside) fun _ => fixes_unwritten

theorem onlyWrites_lookupIpinfo (peerId ip : String) : OnlyWrites false [] peerId (lookupIpinfo ip) :=
  (touches_lookupIpinfo ip).onlyWrites

theorem onlyWrites_queryByReachable (peerId : String) (addresses : List EndpointInfo) :
    OnlyWrites false [] peerId (queryByReachable addresses) :=
  (touches_queryByReachable addresses).onlyWrites

theorem fixes_locateOnline (peer : PeerInfo) (format : KeyFormat) (member : format ∈ fixedFormats) :
    (locateOnline config serde peer).Within (MarciCall.Fixes (format.key peerId)) := by
  unfold locateOnline
  split
  · trivial
  · rename_i addr _
    refine (within_command (fixes_unwritten ?_)).andThen fun _ => ?_
    · simp only [fixedFormats, locationFormats, List.mem_cons, List.not_mem_nil, or_false] at member
      intro written
      obtain ⟨rfl, _⟩ := KeyFormat.key_eq_key.mp (Option.some.inj written)
      simp at member
    · refine ((onlyWrites_lookupIpinfo peer.info.peerId _).fixes _ _ List.not_mem_nil).andThen
        fun found => ?_
      cases found with
      | none => trivial
      | some ip => exact fixes_setIpDetails _ ip

theorem fixes_locateReachable (peer : ReachableInfo) (format : KeyFormat) :
    (locateReachable peer).Within (MarciCall.Fixes (format.key peerId)) := by
  have read : OnlyWrites false [] peer.peer.peerId
      (unwrapOr "" (Client.getString (KeyFormat.peerCountry.key peer.peer.peerId)) : Handler _) :=
    (onlyWrites_getString _).unwrapOr
  refine (read.fixes _ _ List.not_mem_nil).andThen fun country => ?_
  split
  · refine ((onlyWrites_queryByReachable peer.peer.peerId _).fixes _ _
      List.not_mem_nil).andThen fun found => ?_
    cases found with
    | none => trivial
    | some ip => exact fixes_setIpDetails _ ip
  · trivial

theorem fixes_recordReachable (peer : ReachableInfo) (format : KeyFormat)
    (member : format ∈ fixedFormats) :
    (recordReachable serde peer).Within (MarciCall.Fixes (format.key peerId)) := by
  have apart : ∀ other, other ∉ fixedFormats → ∀ subject, other.key subject ≠ format.key peerId := by
    intro other outside subject same
    obtain ⟨rfl, _⟩ := KeyFormat.key_eq_key.mp same
    exact outside member
  refine (within_command (fixes_unwritten ?_)).andThen fun _ => ?_
  · exact fun written => apart .reachablePeer (by decide) _ (Option.some.inj written)
  refine (within_command (fixes_set _ _ _)).andThen fun _ => ?_
  refine Program.Within.andThen (Program.Within.forEach fun ip _ => ?_) fun _ =>
    within_command (fixes_set _ _ _)
  refine (within_command (fixes_unwritten ?_)).andThen fun _ => trivial
  exact fun written => apart .peerIp (by decide) _ (Option.some.inj written)

/-- Networks and places are only ever `SET`, in every branch. -/
theorem fixes_handle (message : Message) (format : KeyFormat) (member : format ∈ fixedFormats) :
    (handle config serde message).Within (MarciCall.Fixes (format.key peerId)) := by
  cases message with
  | online peer =>
    have unmarked : ∀ fixed ∈ fixedFormats, fixed ∉ [KeyFormat.onlinePeer, .online2Peer] := by decide
    have unsettled : ∀ fixed ∈ fixedFormats, fixed ∉ [KeyFormat.peerFull, .peerSeen, .unknownPeer] := by
      decide
    refine ((onlyWrites_markOnline peer).fixes _ _ (unmarked format member)).andThen fun _ => ?_
    refine (fixes_locateOnline peer format member).andThen fun _ => ?_
    exact (onlyWrites_settleOnline peer).fixes _ _ (unsettled format member)
  | unknown peer =>
    have apart : ∀ fixed ∈ fixedFormats, fixed ∉ (Message.unknown peer).formats := by
      simp only [Message.formats]
      decide
    exact (onlyWrites_handle (.unknown peer)).fixes _ _ (apart format member)
  | reachable peer =>
    have unseen : ∀ fixed ∈ fixedFormats, fixed ∉ [KeyFormat.peerSeen] := by decide
    refine (fixes_recordReachable peer format member).andThen fun _ => ?_
    refine ((onlyWrites_setLastSeen _).fixes _ _ (unseen format member)).andThen fun _ => ?_
    refine (fixes_locateReachable peer format).andThen fun _ => ?_
    have updates : OnlyWrites false [] "" setLastUpdate := onlyWrites_setLastUpdate
    exact updates.fixes _ _ List.not_mem_nil
  | tick => exact (onlyWrites_handle .tick).fixes _ _ (by simp [Message.formats])

end CkbDiscovery.Marci
