import CkbDiscovery.Marci.Traces

/-! Where a peer is: four records that one ipinfo answer fills, and which of
them a turn writes that finished or was cut short. -/

namespace CkbDiscovery.Marci

open Effect Redis

variable {config : Config} {serde : Serde} {start final : State} {trace : HandlerTrace}
  {peerId subject : String}

/-- The records that one ipinfo answer fills. -/
def ipRecords (peerId : String) (ip : IpDetails) : List (String × String) :=
  [(KeyFormat.peerCountry.key peerId, ip.country), (KeyFormat.peerCity.key peerId, ip.city),
    (KeyFormat.peerRegion.key peerId, ip.region), (KeyFormat.peerPos.key peerId, ip.loc)]

theorem ipRecords_key {ip : IpDetails} {record : String × String}
    (member : record ∈ ipRecords peerId ip) :
    ∃ format ∈ locationFormats, record.1 = format.key peerId := by
  simp only [ipRecords, List.mem_cons, List.not_mem_nil, or_false] at member
  rcases member with rfl | rfl | rfl | rfl
  · exact ⟨.peerCountry, by decide, rfl⟩
  · exact ⟨.peerCity, by decide, rfl⟩
  · exact ⟨.peerRegion, by decide, rfl⟩
  · exact ⟨.peerPos, by decide, rfl⟩

theorem ipRecords_listed (ip : IpDetails) {format : KeyFormat} (member : format ∈ locationFormats) :
    ∃ record ∈ ipRecords peerId ip, record.1 = format.key peerId := by
  simp only [locationFormats, List.mem_cons, List.not_mem_nil, or_false] at member
  rcases member with rfl | rfl | rfl | rfl <;> simp [ipRecords]

/-- The four keys are different, so each is filled with one text. -/
theorem ipRecords_single {ip : IpDetails} {first second : String × String}
    (one : first ∈ ipRecords peerId ip) (other : second ∈ ipRecords peerId ip)
    (same : first.1 = second.1) : first = second := by
  simp only [ipRecords, List.mem_cons, List.not_mem_nil, or_false] at one other
  rcases one with rfl | rfl | rfl | rfl <;> rcases other with rfl | rfl | rfl | rfl <;> simp at same <;> rfl

/-- The commands that fill them. -/
def ipCalls (peerId : String) (ip : IpDetails) : List MarciCall :=
  (ipRecords peerId ip).map fun record => .redis (.set record.1 record.2)

/-- What ipinfo answered to this call. -/
def answeredIp : (question : MarciCall) → question.Reply → Option IpDetails
  | .lookupIpinfo _, found => found
  | _, _ => none

/-- What this call found about an address, at ipinfo or in the process's cache. -/
def foundIp (question : MarciCall) (reply : question.Reply) : Option IpDetails :=
  match question, reply with
  | .cachedIpinfo _, cached => cached
  | other, reply => answeredIp other reply

def Unlocated (peerId : String) (trace : HandlerTrace) : Prop :=
  ∀ event ∈ trace, ∀ format ∈ locationFormats, event.question.writes ≠ some (format.key peerId)

/-- The place records are written from one ipinfo answer, and all of them if
the turn finished or came as far as the last one. -/
structure LocatedBy (finished : Bool) (peerId : String) (details : IpDetails)
    (trace : HandlerTrace) : Prop where
  found : ∃ event ∈ trace, foundIp event.question event.reply = some details
  written : ∀ event ∈ trace, ∀ format ∈ locationFormats,
    event.question.writes = some (format.key peerId) → event.question ∈ ipCalls peerId details
  whole : finished = true ∨
      (∃ event ∈ trace, event.question.writes = some (KeyFormat.peerPos.key peerId)) →
    ∀ call ∈ ipCalls peerId details, ∃ event ∈ trace, event.question = call

def Relocates (finished : Bool) (peerId : String) (trace : HandlerTrace) : Prop :=
  Unlocated peerId trace ∨ ∃ details, LocatedBy finished peerId details trace

theorem Unlocated.append {first rest : HandlerTrace} (earlier : Unlocated peerId first)
    (later : Unlocated peerId rest) : Unlocated peerId (first ++ rest) :=
  fun event member => (List.mem_append.mp member).elim (earlier event) (later event)

theorem unlocated_of_onlyWrites {formats : List KeyFormat} {handler : Handler α}
    (only : OnlyWrites broadcasts formats subject handler)
    (apart : peerId ≠ subject ∨ ∀ format ∈ locationFormats, format ∉ formats)
    (reaches : Reaches world start handler trace final) : Unlocated peerId trace :=
  fun event member format located => only.unwritten_reached reaches format peerId
    (apart.symm.imp_left fun free => free format located) event member

theorem LocatedBy.after {first rest : HandlerTrace} {details : IpDetails}
    (earlier : Unlocated peerId first)
    (found : ∃ event ∈ first ++ rest, foundIp event.question event.reply = some details)
    (written : ∀ event ∈ rest, ∀ format ∈ locationFormats,
      event.question.writes = some (format.key peerId) → event.question ∈ ipCalls peerId details)
    (whole : finished = true ∨
        (∃ event ∈ rest, event.question.writes = some (KeyFormat.peerPos.key peerId)) →
      ∀ call ∈ ipCalls peerId details, ∃ event ∈ rest, event.question = call) :
    LocatedBy finished peerId details (first ++ rest) := by
  refine ⟨found, fun event member format place writes => ?_, fun reason call asked => ?_⟩
  · rcases List.mem_append.mp member with here | there
    · exact absurd writes (earlier event here format place)
    · exact written event there format place writes
  · have further : (∃ event ∈ first ++ rest,
        event.question.writes = some (KeyFormat.peerPos.key peerId)) →
        ∃ event ∈ rest, event.question.writes = some (KeyFormat.peerPos.key peerId) := by
      intro given
      obtain ⟨event, member, writes⟩ := given
      rcases List.mem_append.mp member with here | there
      · exact absurd writes (earlier event here _ (by decide))
      · exact ⟨event, there, writes⟩
    obtain ⟨event, member, same⟩ := whole (reason.imp_right further) call asked
    exact ⟨event, List.mem_append_right _ member, same⟩

theorem Relocates.after {first rest : HandlerTrace} (later : Relocates finished peerId rest)
    (earlier : Unlocated peerId first) : Relocates finished peerId (first ++ rest) := by
  rcases later with unlocated | ⟨details, located⟩
  · exact .inl (earlier.append unlocated)
  · obtain ⟨event, member, found⟩ := located.found
    exact .inr ⟨details, .after earlier ⟨event, List.mem_append_right _ member, found⟩
      located.written located.whole⟩

/-- Once the four commands are through, later parts change nothing about them. -/
theorem Relocates.before {first rest : HandlerTrace} (earlier : Relocates true peerId first)
    (later : Unlocated peerId rest) (finished : Bool) : Relocates finished peerId (first ++ rest) := by
  rcases earlier with unlocated | ⟨details, located⟩
  · exact .inl (unlocated.append later)
  · refine .inr ⟨details, ?_, fun event member format place written => ?_, fun _ call asked => ?_⟩
    · obtain ⟨event, member, found⟩ := located.found
      exact ⟨event, List.mem_append_left _ member, found⟩
    · rcases List.mem_append.mp member with here | there
      · exact located.written event here format place written
      · exact absurd written (later event there format place)
    · obtain ⟨event, member, same⟩ := located.whole (.inl rfl) call asked
      exact ⟨event, List.mem_append_left _ member, same⟩

theorem setIpDetails_eq (peerId : String) (ip : IpDetails) :
    setIpDetails peerId ip = Program.forEach
      (fun record => orReturn (Client.set record.1 record.2)) (ipRecords peerId ip) := by
  have last := Program.bind_done (orReturn (Client.set (KeyFormat.peerPos.key peerId) ip.loc) : Handler Unit)
  have finish : (fun _ : Unit => (Program.done () : Handler Unit)) = Program.done := rfl
  simp only [setIpDetails, ipRecords, Program.forEach]
  rw [finish, last]

theorem reaches_command {command : Command}
    (reaches : Reaches world start (orReturn (Client.send command)) trace final) :
    trace = [] ∨ ∃ event : Event State MarciCall.Reply, trace = [event] ∧ event.question = .redis command := by
  rcases Reaches.split reaches with sending | ⟨_, _, reply, _, sent, rest, rfl⟩
  · cases sending with
    | here _ => exact .inl rfl
    | ask _ _ rest =>
      cases rest with
      | here _ => exact .inr ⟨_, rfl, rfl⟩
  · obtain ⟨_, _, rfl, rfl, _⟩ := HandlerCompletes.send sent
    cases rest with
    | here _ => exact .inr ⟨_, rfl, rfl⟩

/-- A row of `SET`s is worked off from the front. -/
theorem reaches_sets {records : List (String × String)}
    (reaches : Reaches world start (Program.forEach
      (fun record => (orReturn (Client.set record.1 record.2) : Handler Unit)) records) trace final) :
    trace.map Event.question <+: records.map fun record => .redis (.set record.1 record.2) := by
  induction records generalizing start trace with
  | nil =>
    cases reaches with
    | here _ => exact List.nil_prefix
  | cons record rest inductionHypothesis =>
    rcases Reaches.split reaches with inside | ⟨_, _, _, _, completes, later, rfl⟩
    · rcases reaches_command inside with rfl | ⟨event, rfl, same⟩
      · exact List.nil_prefix
      · simp [same]
    · obtain ⟨_, rfl, _⟩ := HandlerCompletes.command completes
      simpa using inductionHypothesis later

theorem completes_sets {records : List (String × String)}
    (completes : HandlerCompletes start (Program.forEach
      (fun record => (orReturn (Client.set record.1 record.2) : Handler Unit)) records) trace final ()) :
    trace.map Event.question = records.map fun record => .redis (.set record.1 record.2) := by
  induction records generalizing start trace with
  | nil =>
    obtain ⟨rfl, _, _⟩ := Completes.of_done completes
    rfl
  | cons record rest inductionHypothesis =>
    obtain ⟨_, _, _, _, first, later, rfl⟩ := Completes.split completes
    obtain ⟨_, rfl, _⟩ := HandlerCompletes.command first
    simpa using inductionHypothesis later

theorem ipCalls_before_last {ip : IpDetails} {call : MarciCall}
    (member : call ∈ (ipRecords peerId ip).dropLast.map fun record =>
      MarciCall.redis (.set record.1 record.2)) :
    call.writes ≠ some (KeyFormat.peerPos.key peerId) := by
  intro written
  simp only [ipRecords, List.dropLast, List.map_cons, List.map_nil, List.mem_cons, List.not_mem_nil,
    or_false] at member
  rcases member with rfl | rfl | rfl <;> simp [MarciCall.writes, Command.writes] at written

/-- Cut short before the last of the four commands, the position is not written yet. -/
theorem setIpDetails_whole {ip : IpDetails}
    (reaches : Reaches world start (setIpDetails peerId ip) trace final)
    (last : ∃ event ∈ trace, event.question.writes = some (KeyFormat.peerPos.key peerId)) :
    ∀ call ∈ ipCalls peerId ip, ∃ event ∈ trace, event.question = call := by
  rw [setIpDetails_eq] at reaches
  have shape : trace.map Event.question <+: ((ipRecords peerId ip).dropLast.map fun record =>
      MarciCall.redis (.set record.1 record.2)) ++
        [.redis (.set (KeyFormat.peerPos.key peerId) ip.loc)] := reaches_sets reaches
  rcases List.prefix_concat_iff.mp shape with whole | cut
  · intro call asked
    have complete : trace.map Event.question = ipCalls peerId ip := whole
    rw [← complete] at asked
    exact List.mem_map.mp asked
  · obtain ⟨event, member, written⟩ := last
    exact absurd written (ipCalls_before_last (cut.subset (List.mem_map_of_mem member)))

theorem setIpDetails_written {ip : IpDetails}
    (reaches : Reaches world start (setIpDetails peerId ip) trace final) :
    ∀ event ∈ trace, event.question ∈ ipCalls peerId ip := by
  rw [setIpDetails_eq] at reaches
  exact fun event member => (reaches_sets reaches).subset (List.mem_map_of_mem member)

/-- All four commands are made by a write of the places that is completed or has
come to the last of them. -/
theorem setIpDetails_all {ip : IpDetails} {finished : Bool}
    (proceeds : Proceeds world finished start (setIpDetails peerId ip) trace final)
    (reason : finished = true ∨
      ∃ event ∈ trace, event.question.writes = some (KeyFormat.peerPos.key peerId)) :
    ∀ call ∈ ipCalls peerId ip, ∃ event ∈ trace, event.question = call := by
  cases finished with
  | true =>
    rw [setIpDetails_eq] at proceeds
    intro call asked
    rw [ipCalls, ← completes_sets proceeds] at asked
    exact List.mem_map.mp asked
  | false => exact setIpDetails_whole proceeds (reason.resolve_left Bool.false_ne_true)

theorem lookupIpinfo_found {ip : String} {details : IpDetails}
    (completes : HandlerCompletes start (lookupIpinfo ip) trace final (some details)) :
    ∃ event ∈ trace, foundIp event.question event.reply = some details := by
  obtain ⟨_, _, cached, _, asking, rest, rfl⟩ := Completes.split completes
  obtain ⟨asked, _, rfl, _⟩ := Completes.of_perform asking
  cases cached with
  | some hit =>
    obtain ⟨rfl, _, same⟩ := Completes.of_done rest
    exact ⟨_, List.mem_cons_self, same.symm⟩
  | none =>
    obtain ⟨_, _, found, _, looking, looked, rfl⟩ := Completes.split rest
    obtain ⟨_, _, rfl, _⟩ := Completes.of_perform looking
    cases found with
    | none =>
      obtain ⟨_, _, same⟩ := Completes.of_done looked
      cases same
    | some hit =>
      obtain ⟨_, _, _, _, _, finished, rfl⟩ := Completes.split looked
      obtain ⟨_, _, same⟩ := Completes.of_done finished
      exact ⟨_, List.mem_append_right _ (List.mem_append_left _ List.mem_cons_self), same.symm⟩

theorem queryByReachable_found {addresses : List EndpointInfo} {details : IpDetails}
    (completes : HandlerCompletes start (queryByReachable addresses) trace final (some details)) :
    ∃ event ∈ trace, foundIp event.question event.reply = some details := by
  induction addresses generalizing start trace with
  | nil =>
    obtain ⟨_, _, same⟩ := Completes.of_done completes
    cases same
  | cons addr rest inductionHypothesis =>
    obtain ⟨_, _, found, _, looking, others, rfl⟩ := Completes.split completes
    cases found with
    | some hit =>
      obtain ⟨rfl, _, same⟩ := Completes.of_done others
      rw [List.append_nil]
      exact lookupIpinfo_found (same ▸ looking)
    | none =>
      obtain ⟨event, member, found⟩ := inductionHypothesis others
      exact ⟨event, List.mem_append_right _ member, found⟩

theorem unlocated_nil : Unlocated peerId [] := by simp [Unlocated]

theorem unlocated_silent {handler : Handler α} (silent : OnlyWrites false [] subject handler)
    (reaches : Reaches world start handler trace final) : Unlocated peerId trace :=
  unlocated_of_onlyWrites silent (.inr fun _ _ => List.not_mem_nil) reaches

section Query

variable {query : Handler (Option IpDetails)} {next : Option IpDetails → Handler Unit}
  (silent : OnlyWrites false [] subject query)
  (finds : ∀ {start trace final details}, HandlerCompletes start query trace final (some details) →
    ∃ event ∈ trace, foundIp event.question event.reply = some details)
  (nothing : next none = pure ()) (something : ∀ ip, next (some ip) = setIpDetails peerId ip)

include silent finds nothing something

theorem query_relocates (proceeds : Proceeds world finished start (query >>= next) trace final) :
    Relocates finished peerId trace := by
  rcases Proceeds.split proceeds with ⟨_, inside⟩ | ⟨first, _, found, rest, asked, later, rfl⟩
  · exact .inl (unlocated_silent silent inside)
  have quiet : Unlocated peerId first := unlocated_silent silent asked.reaches
  cases found with
  | none =>
    rw [nothing] at later
    obtain rfl := Proceeds.of_done later
    exact .inl (quiet.append unlocated_nil)
  | some ip =>
    rw [something] at later
    obtain ⟨event, member, found⟩ := finds asked
    refine .inr ⟨ip, .after quiet ⟨event, List.mem_append_left _ member, found⟩ ?_ ?_⟩
    · exact fun event member _ _ _ => setIpDetails_written later.reaches event member
    · exact setIpDetails_all later

end Query

theorem onlyWrites_placeOnline (peer : PeerInfo) (addr : EndpointInfo) :
    OnlyWrites false [.onlineIp] peer.info.peerId (orReturn (Client.setEx
      (KeyFormat.onlineIp.key peer.info.peerId) (serde.endpointInfo.toString addr)
      config.ckbNodeDefaultTimeout.toNat)) :=
  onlyWrites_record .onlineIp rfl (by decide)

theorem locateOnline_relocates {peer : PeerInfo}
    (proceeds : Proceeds world finished start (locateOnline config serde peer) trace final) :
    Relocates finished peer.info.peerId trace := by
  unfold locateOnline at proceeds
  split at proceeds
  · obtain rfl := Proceeds.of_done proceeds
    exact .inl unlocated_nil
  · rcases Proceeds.split proceeds with ⟨_, inside⟩ | ⟨_, _, _, _, placed, later, rfl⟩
    · exact .inl (unlocated_of_onlyWrites (onlyWrites_placeOnline peer _) (.inr (by decide)) inside)
    · refine Relocates.after ?_
        (unlocated_of_onlyWrites (onlyWrites_placeOnline peer _) (.inr (by decide)) placed.reaches)
      exact query_relocates (onlyWrites_lookupIpinfo peer.info.peerId _)
        lookupIpinfo_found rfl (fun _ => rfl) later

theorem onlyWrites_knownCountry (peerId : String) :
    OnlyWrites false [] peerId (unwrapOr "" (Client.getString (KeyFormat.peerCountry.key peerId))) :=
  (onlyWrites_getString _).unwrapOr

theorem locateReachable_relocates {peer : ReachableInfo}
    (proceeds : Proceeds world finished start (locateReachable peer) trace final) :
    Relocates finished peer.peer.peerId trace := by
  rcases Proceeds.split proceeds with ⟨_, inside⟩ | ⟨_, _, _, _, read, later, rfl⟩
  · exact .inl (unlocated_silent (onlyWrites_knownCountry _) inside)
  · refine Relocates.after ?_ (unlocated_silent (onlyWrites_knownCountry _) read.reaches)
    split at later
    · exact query_relocates (onlyWrites_queryByReachable peer.peer.peerId _)
        queryByReachable_found rfl (fun _ => rfl) later
    · obtain rfl := Proceeds.of_done later
      exact .inl unlocated_nil

theorem onlyWrites_recordReachable (peer : ReachableInfo) :
    OnlyWrites false [.reachablePeer, .peerNetworkQuick peer.peer.network, .peerIp, .peerNetwork]
      peer.peer.peerId (recordReachable serde peer) :=
  Touches.onlyWrites (touches_recordReachable peer : Touches false _ _ _)

theorem handleOnline_relocates {peer : PeerInfo}
    (proceeds : Proceeds world finished start (handleOnline config serde peer) trace final) :
    Relocates finished peer.info.peerId trace := by
  rcases Proceeds.split proceeds with ⟨_, inside⟩ | ⟨_, _, _, _, marked, later, rfl⟩
  · exact .inl (unlocated_of_onlyWrites (onlyWrites_markOnline peer) (.inr (by decide)) inside)
  refine Relocates.after ?_
    (unlocated_of_onlyWrites (onlyWrites_markOnline peer) (.inr (by decide)) marked.reaches)
  rcases Proceeds.split later with ⟨rfl, inside⟩ | ⟨_, _, _, _, located, settling, rfl⟩
  · exact locateOnline_relocates inside
  exact (locateOnline_relocates located.proceeds).before (unlocated_of_onlyWrites
    (onlyWrites_settleOnline peer) (.inr (by decide)) settling.reaches) finished

section Reachable

variable {peer : ReachableInfo}

theorem unlocated_recordReachable
    (reaches : Reaches world start (recordReachable serde peer) trace final) :
    Unlocated peer.peer.peerId trace :=
  unlocated_of_onlyWrites (onlyWrites_recordReachable peer)
    (.inr (by simp [locationFormats])) reaches

theorem unlocated_setLastSeen (reaches : Reaches world start (setLastSeen subject) trace final) :
    Unlocated peerId trace :=
  unlocated_of_onlyWrites (onlyWrites_setLastSeen subject) (.inr (by decide)) reaches

theorem unlocated_setLastUpdate (reaches : Reaches world start setLastUpdate trace final) :
    Unlocated peerId trace :=
  unlocated_silent (onlyWrites_setLastUpdate : OnlyWrites false [] peerId setLastUpdate) reaches

theorem handleReachable_relocates
    (proceeds : Proceeds world finished start (handleReachable serde peer) trace final) :
    Relocates finished peer.peer.peerId trace := by
  rcases Proceeds.split proceeds with ⟨_, inside⟩ | ⟨_, _, _, _, recorded, later, rfl⟩
  · exact .inl (unlocated_recordReachable inside)
  refine Relocates.after ?_ (unlocated_recordReachable recorded.reaches)
  rcases Proceeds.split later with ⟨_, inside⟩ | ⟨_, _, _, _, seen, rest, rfl⟩
  · exact .inl (unlocated_setLastSeen inside)
  refine Relocates.after ?_ (unlocated_setLastSeen seen.reaches)
  rcases Proceeds.split rest with ⟨rfl, inside⟩ | ⟨_, _, _, _, located, updating, rfl⟩
  · exact locateReachable_relocates inside
  exact (locateReachable_relocates located.proceeds).before (unlocated_setLastUpdate updating.reaches) finished

end Reachable

theorem unlocated_handle {message : Message}
    (apart : peerId ≠ message.subject ∨ ∀ format ∈ locationFormats, format ∉ message.formats)
    (reaches : Reaches world start (handle config serde message) trace final) :
    Unlocated peerId trace :=
  unlocated_of_onlyWrites (onlyWrites_handle message) apart reaches

/-- A turn writes the places of a peer from one ipinfo answer; a finished one
writes all of them or none. -/
theorem handle_relocates {message : Message}
    (proceeds : Proceeds world finished start (handle config serde message) trace final) :
    Relocates finished peerId trace := by
  by_cases subject : peerId = message.subject
  · subst subject
    cases message with
    | online peer => exact handleOnline_relocates proceeds
    | unknown peer =>
      exact .inl (unlocated_handle (.inr (by simp only [Message.formats]; decide)) proceeds.reaches)
    | reachable peer => exact handleReachable_relocates proceeds
    | tick => exact .inl (unlocated_handle (.inr (by simp [Message.formats])) proceeds.reaches)
  · exact .inl (unlocated_handle (.inl subject) proceeds.reaches)

/-- What goes into the process's cache was answered by ipinfo in the same trace. -/
def CachesAnswers (trace : HandlerTrace) : Prop :=
  ∀ event ∈ trace, ∀ ip details, event.question = .cacheIpinfo ip details →
    ∃ other ∈ trace, answeredIp other.question other.reply = some details

theorem CachesAnswers.append {first rest : HandlerTrace} (earlier : CachesAnswers first)
    (later : CachesAnswers rest) : CachesAnswers (first ++ rest) := by
  intro event member ip details same
  rcases List.mem_append.mp member with here | there
  · obtain ⟨other, found, answer⟩ := earlier event here ip details same
    exact ⟨other, List.mem_append_left _ found, answer⟩
  · obtain ⟨other, found, answer⟩ := later event there ip details same
    exact ⟨other, List.mem_append_right _ found, answer⟩

theorem cachesAnswers_nil : CachesAnswers [] := fun _ member => absurd member List.not_mem_nil

theorem cachesAnswers_of_within {handler : Handler α}
    (within : handler.Within fun question => ∀ ip details, question ≠ .cacheIpinfo ip details)
    (reaches : Reaches world start handler trace final) : CachesAnswers trace :=
  fun event member ip details same => absurd same (Reaches.permitted within reaches event member ip details)

theorem Touches.uncached {formats : List KeyFormat} {handler : Handler α}
    (touches : Touches false formats peerId handler)
    (reaches : Reaches world start handler trace final) : CachesAnswers trace := by
  refine cachesAnswers_of_within (Program.Within.mono touches fun question about => ?_) reaches
  cases question with
  | cacheIpinfo ip details => cases about
  | _ => nofun

theorem lookupIpinfo_caches {ip : String}
    (reaches : Reaches world start (lookupIpinfo ip) trace final) : CachesAnswers trace := by
  have reading : (ask (.cachedIpinfo ip)).Within fun question =>
      ∀ ip details, question ≠ .cacheIpinfo ip details := ⟨nofun, fun _ => trivial⟩
  have looking : (ask (.lookupIpinfo ip)).Within fun question =>
      ∀ ip details, question ≠ .cacheIpinfo ip details := ⟨nofun, fun _ => trivial⟩
  rcases Reaches.split reaches with inside | ⟨_, _, cached, _, read, later, rfl⟩
  · exact cachesAnswers_of_within reading inside
  refine (cachesAnswers_of_within reading read.reaches).append ?_
  cases cached with
  | some hit =>
    cases later with
    | here _ => exact cachesAnswers_nil
  | none =>
    rcases Reaches.split later with inside | ⟨_, _, found, _, looked, rest, rfl⟩
    · exact cachesAnswers_of_within looking inside
    obtain ⟨_, _, rfl, _⟩ := Completes.of_perform looked
    cases found with
    | none =>
      cases rest with
      | here _ => exact (cachesAnswers_of_within looking looked.reaches).append cachesAnswers_nil
    | some hit =>
      -- the only address ever cached is the one just answered
      have stores : (do ask (.cacheIpinfo ip hit); pure (some hit) : Handler _).Within fun question =>
          question = .cacheIpinfo ip hit := ⟨rfl, fun _ => trivial⟩
      intro event member other details same
      rcases List.mem_append.mp member with here | there
      · obtain rfl := List.mem_singleton.mp here
        cases same
      · have asked := Reaches.permitted stores rest event there
        obtain ⟨rfl, rfl⟩ : other = ip ∧ details = hit := by simpa [asked, eq_comm] using same
        exact ⟨_, List.mem_append_left _ List.mem_cons_self, rfl⟩

theorem queryByReachable_caches {addresses : List EndpointInfo}
    (reaches : Reaches world start (queryByReachable addresses) trace final) :
    CachesAnswers trace := by
  induction addresses generalizing start trace final with
  | nil =>
    cases reaches with
    | here _ => exact cachesAnswers_nil
  | cons addr rest inductionHypothesis =>
    refine Reaches.andThen CachesAnswers.append lookupIpinfo_caches (fun found => ?_) reaches
    intro before trace after later
    cases found with
    | some hit =>
      cases later with
      | here _ => exact cachesAnswers_nil
    | none => exact inductionHypothesis later

/-- Both kinds of lookup, and what is made of the answer. -/
theorem query_caches {query : Handler (Option IpDetails)} {next : Option IpDetails → Handler Unit}
    (caches : ∀ {start trace final}, Reaches world start query trace final → CachesAnswers trace)
    (nothing : next none = pure ()) (something : ∀ ip, next (some ip) = setIpDetails peerId ip)
    (reaches : Reaches world start (query >>= next) trace final) : CachesAnswers trace := by
  refine Reaches.andThen CachesAnswers.append caches (fun found => ?_) reaches
  intro before trace after later
  cases found with
  | none =>
    rw [nothing] at later
    cases later with
    | here _ => exact cachesAnswers_nil
  | some ip =>
    rw [something] at later
    exact Touches.uncached (touches_setIpDetails peerId ip) later

theorem locateOnline_caches {peer : PeerInfo}
    (reaches : Reaches world start (locateOnline config serde peer) trace final) :
    CachesAnswers trace := by
  unfold locateOnline at reaches
  split at reaches
  · cases reaches with
    | here _ => exact cachesAnswers_nil
  · rename_i addr _
    exact Reaches.andThen CachesAnswers.append (touches_placeOnline peer addr : Touches false _ _ _).uncached
      (fun _ => query_caches lookupIpinfo_caches rfl fun _ => rfl) reaches

theorem locateReachable_caches {peer : ReachableInfo}
    (reaches : Reaches world start (locateReachable peer) trace final) : CachesAnswers trace := by
  refine Reaches.andThen CachesAnswers.append (touches_knownCountry _ : Touches false _ _ _).uncached
    (fun country => ?_) reaches
  intro before trace after later
  split at later
  · exact query_caches queryByReachable_caches rfl (fun _ => rfl) later
  · cases later with
    | here _ => exact cachesAnswers_nil

theorem setLastUpdate_uncached :
    setLastUpdate.Within fun question => ∀ ip details, question ≠ .cacheIpinfo ip details :=
  ⟨nofun, fun _ => within_unwrapOr (within_send nofun)⟩

theorem handleTick_uncached :
    (handleTick serde).Within fun question => ∀ ip details, question ≠ .cacheIpinfo ip details := by
  refine (within_command nofun).andThen fun keys => ?_
  refine Program.Within.andThen (Program.Within.forEach fun peerId _ => ?_) fun _ => setLastUpdate_uncached
  refine Program.Within.andThen ?_ fun metaInfo => within_orReturn ⟨nofun, fun _ => trivial⟩
  exact (within_unwrapOr (within_send nofun)).andThen fun _ =>
    (within_unwrapOr (within_getString nofun)).andThen fun _ => trivial

/-- Marci caches nothing about an address that ipinfo did not just answer. -/
theorem handle_caches {message : Message}
    (reaches : Reaches world start (handle config serde message) trace final) :
    CachesAnswers trace := by
  cases message with
  | online peer =>
    exact Reaches.andThen CachesAnswers.append (Touches.uncached (touches_markOnline peer))
      (fun _ => Reaches.andThen CachesAnswers.append locateOnline_caches
        fun _ => Touches.uncached (touches_settleOnline peer)) reaches
  | unknown peer =>
    exact Reaches.andThen CachesAnswers.append (Touches.uncached (touches_markUnknown peer.peerId))
      (fun _ => Touches.uncached (touches_setLastSeen peer.peerId)) reaches
  | reachable peer =>
    exact Reaches.andThen CachesAnswers.append (Touches.uncached (touches_recordReachable peer))
      (fun _ => Reaches.andThen CachesAnswers.append
        (Touches.uncached (touches_setLastSeen peer.peer.peerId))
        fun _ => Reaches.andThen CachesAnswers.append locateReachable_caches
          fun _ => cachesAnswers_of_within setLastUpdate_uncached) reaches
  | tick => exact cachesAnswers_of_within handleTick_uncached reaches

end CkbDiscovery.Marci
