import CkbDiscovery.Marci.Restart

/-! The cache in front of ipinfo: as long as a process lives, each address is
answered at most once, and every later lookup gets this very answer. So what is
recorded about the place of a peer was answered for one of its own hosts. -/

namespace CkbDiscovery.Marci

open Effect Redis

variable {config : Config} {serde : Serde} {start final before after : State} {trace first rest : HandlerTrace}
  {α β : Type}

/-- What ipinfo has found in this call about an address. -/
def answerTo (ip : String) : Event State MarciCall.Reply → Option IpDetails
  | ⟨_, .lookupIpinfo other, found⟩ => if other = ip then found else none
  | _ => none

def answersTo (ip : String) (trace : HandlerTrace) : List IpDetails := trace.filterMap (answerTo ip)

/-- What was known of the addresses before: at most one answer each. No address
gets a second one, and what the cache gives is the one known by then. -/
structure Remembers (known : String → List IpDetails) (trace : HandlerTrace) : Prop where
  once : ∀ ip, (known ip ++ answersTo ip trace).length ≤ 1
  recalls : ∀ {first asked ip reply last}, trace = first ++ ⟨asked, .cachedIpinfo ip, reply⟩ :: last →
    reply = (known ip ++ answersTo ip first).head?

variable {known : String → List IpDetails}

theorem answersTo_append (ip : String) (first rest : HandlerTrace) :
    answersTo ip (first ++ rest) = answersTo ip first ++ answersTo ip rest :=
  List.filterMap_append

theorem Remembers.append (earlier : Remembers known first)
    (later : Remembers (fun ip => known ip ++ answersTo ip first) rest) : Remembers known (first ++ rest) where
  once ip := by
    have total := later.once ip
    rwa [List.append_assoc, ← answersTo_append] at total
  recalls {before asked ip reply last} split := by
    rcases List.append_eq_append_iff.mp split with ⟨more, rfl, there⟩ | ⟨more, here, there⟩
    · have recalled := later.recalls there
      rwa [List.append_assoc, ← answersTo_append] at recalled
    · cases more with
      | nil =>
        rw [List.append_nil] at here
        subst here
        have recalled := later.recalls (show rest = [] ++ _ from there.symm)
        simpa [answersTo] using recalled
      | cons event more =>
        obtain ⟨rfl, rfl⟩ := List.cons.inj there
        exact earlier.recalls here

theorem remembers_nil (bounded : ∀ ip, (known ip).length ≤ 1) : Remembers known [] where
  once ip := by simpa [answersTo] using bounded ip
  recalls split := by simp at split

/-- One call, which is to the cache, to ipinfo about an address that is not known, or to neither. -/
theorem remembers_call {event : Event State MarciCall.Reply} (bounded : ∀ ip, (known ip).length ≤ 1)
    (asks : ∀ ip details, answerTo ip event = some details → known ip = [])
    (recalls : ∀ {asked ip reply}, event = ⟨asked, .cachedIpinfo ip, reply⟩ → reply = (known ip).head?) :
    Remembers known [event] where
  once ip := by
    cases answered : answerTo ip event with
    | none => simpa [answersTo, answered] using bounded ip
    | some details => simp [answersTo, answered, asks ip details answered]
  recalls {first asked ip reply last} split := by
    rcases List.cons_eq_append_iff.mp split with ⟨rfl, same⟩ | ⟨more, _, none⟩
    · obtain ⟨rfl, _⟩ := List.cons.inj same
      simpa [answersTo] using recalls rfl
    · simp at none

def knownIn (state : State) (ip : String) : List IpDetails := (state.ipinfoCache.lookup ip).toList

theorem knownIn_length (state : State) (ip : String) : (knownIn state ip).length ≤ 1 := by
  unfold knownIn
  cases state.ipinfoCache.lookup ip <;> simp

theorem knownIn_drift (quiet : Relation.ReflTransGen world.drifts before after) : knownIn after = knownIn before := by
  induction quiet with
  | refl => rfl
  | tail _ step inductionHypothesis =>
    cases step with
    | redis drifts => exact inductionHypothesis

/-- Whatever becomes of it, the handler goes through the cache, and once it has
completed, the cache holds all that was answered. -/
structure Thrifty (handler : Handler α) : Prop where
  remembers : ∀ {start trace final}, Reaches world start handler trace final → Remembers (knownIn start) trace
  keeps : ∀ {start trace final value}, HandlerCompletes start handler trace final value →
    knownIn final = fun ip => knownIn start ip ++ answersTo ip trace

theorem Thrifty.andThen {handler : Handler α} {next : α → Handler β} (head : Thrifty handler)
    (tail : ∀ value, Thrifty (next value)) : Thrifty (handler >>= next) where
  remembers reaches := by
    rcases Reaches.split reaches with inside | ⟨_, _, value, _, completes, later, rfl⟩
    · exact head.remembers inside
    · have remembered := (tail value).remembers later
      rw [head.keeps completes] at remembered
      exact (head.remembers completes.reaches).append remembered
  keeps completes := by
    obtain ⟨_, _, value, _, first, later, rfl⟩ := Completes.split completes
    rw [(tail value).keeps later, head.keeps first]
    funext ip
    rw [List.append_assoc, ← answersTo_append]

theorem thrifty_pure (value : α) : Thrifty (pure value : Handler α) where
  remembers reaches := by
    cases reaches with
    | here _ => exact remembers_nil (knownIn_length _)
  keeps completes := by
    obtain ⟨rfl, quiet, _⟩ := Completes.of_done completes
    rw [knownIn_drift quiet]
    simp [answersTo]

/-- A call about neither the cache nor ipinfo. -/
def MarciCall.Offline : MarciCall → Prop
  | .cachedIpinfo _ | .cacheIpinfo .. | .lookupIpinfo _ => False
  | _ => True

theorem offline_answers {trace : HandlerTrace} (offline : ∀ event ∈ trace, event.question.Offline) (ip : String) :
    answersTo ip trace = [] := by
  rw [answersTo, List.filterMap_eq_nil_iff]
  intro event member
  have free := offline event member
  obtain ⟨asked, question, reply⟩ := event
  cases question with
  | lookupIpinfo other => cases free
  | _ => rfl

theorem thrifty_offline {handler : Handler α} (offline : handler.Within MarciCall.Offline) : Thrifty handler where
  remembers {start trace final} reaches := by
    have free := Reaches.permitted offline reaches
    constructor
    · intro ip
      simpa [offline_answers free] using knownIn_length start ip
    · rintro first asked ip reply last rfl
      have cached := free ⟨asked, .cachedIpinfo ip, reply⟩ (by simp)
      cases cached
  keeps {start trace final value} completes := by
    have free := Reaches.permitted offline completes.reaches
    have same : final.ipinfoCache = start.ipinfoCache := by
      refine completes.reaches.relates (fun earlier later : State => later.ipinfoCache = earlier.ipinfoCache)
        (fun _ => rfl) (fun earlier later => later.trans earlier) ?_ ?_ offline
      · intro earlier later drifts
        cases drifts with
        | redis _ => rfl
      · intro asked question reply replied permitted answered
        change Answers asked question reply replied at answered
        cases answered with
        | cacheIpinfo => cases permitted
        | _ => rfl
    funext ip
    rw [offline_answers free, List.append_nil, knownIn, knownIn, same]

theorem Touches.offline {formats : List KeyFormat} {peerId : String} {handler : Handler α}
    (touches : Touches false formats peerId handler) : handler.Within MarciCall.Offline :=
  Program.Within.mono touches fun question about => by
    cases question with
    | cachedIpinfo ip => cases about
    | cacheIpinfo ip details => cases about
    | lookupIpinfo ip => cases about
    | _ => trivial

theorem Touches.thrifty {formats : List KeyFormat} {peerId : String} {handler : Handler α}
    (touches : Touches false formats peerId handler) : Thrifty handler :=
  thrifty_offline touches.offline

theorem remembers_cached {asked : State} {ip : String} {reply : Option IpDetails} (same : knownIn asked = known)
    (recalled : reply = asked.ipinfoCache.lookup ip) : Remembers known [⟨asked, .cachedIpinfo ip, reply⟩] := by
  subst same recalled
  refine remembers_call (knownIn_length asked) nofun ?_
  intro asked ip reply same
  cases same
  rw [knownIn, Option.head?_toList]

theorem Answers.recalled {asked replied : State} {ip : String} {reply : Option IpDetails}
    (answers : Answers asked (.cachedIpinfo ip) reply replied) :
    reply = asked.ipinfoCache.lookup ip ∧ asked = replied := by
  cases answers
  exact ⟨rfl, rfl⟩

theorem remembers_looked {asked : State} {ip : String} {found : Option IpDetails}
    (bounded : ∀ ip, (known ip).length ≤ 1) (unknown : known ip = []) :
    Remembers known [⟨asked, .lookupIpinfo ip, found⟩] := by
  refine remembers_call bounded (fun other details answered => ?_) nofun
  simp only [answerTo] at answered
  split at answered
  · rename_i same
    exact same ▸ unknown
  · cases answered

theorem remembers_cache {asked : State} {ip : String} {details : IpDetails}
    (bounded : ∀ ip, (known ip).length ≤ 1) : Remembers known [⟨asked, .cacheIpinfo ip details, ()⟩] :=
  remembers_call bounded nofun nofun

theorem answersTo_cached {asked : State} {ip other : String} {reply : Option IpDetails} :
    answersTo other [⟨asked, .cachedIpinfo ip, reply⟩] = [] := rfl

theorem knownIn_insert (state : State) (ip : String) (details : IpDetails) (unknown : knownIn state ip = [])
    (other : String) :
    knownIn { state with ipinfoCache := state.ipinfoCache.insert ip details } other =
      knownIn state other ++ (if ip = other then [details] else []) := by
  by_cases same : ip = other
  · subst same
    rw [unknown]
    simp [knownIn, Finmap.lookup_insert]
  · simp [knownIn, same, Finmap.lookup_insert_of_ne _ (Ne.symm same)]

/-- What a lookup does on a miss. -/
def fetchIpinfo (ip : String) : Handler (Option IpDetails) := do
  match ← ask (.lookupIpinfo ip) with
  | some details =>
    ask (.cacheIpinfo ip details)
    pure (some details)
  | none => pure none

theorem fetchIpinfo_remembers {ip : String} (unknown : knownIn start ip = [])
    (reaches : Reaches world start (fetchIpinfo ip) trace final) : Remembers (knownIn start) trace := by
  rcases Reaches.split reaches with inside | ⟨_, middle, found, _, looking, later, rfl⟩
  · cases inside with
    | here _ => exact remembers_nil (knownIn_length start)
    | ask quiet _ rest =>
      cases rest with
      | here _ => exact remembers_looked (knownIn_length start) unknown
  · obtain ⟨asked, _, rfl, quiet, answered, onward⟩ := Completes.of_perform looking
    have looked : Remembers (knownIn start) [⟨asked, .lookupIpinfo ip, found⟩] :=
      remembers_looked (knownIn_length start) unknown
    refine looked.append ?_
    cases found with
    | none =>
      cases later with
      | here _ => exact remembers_nil looked.once
    | some details =>
      rcases Reaches.split later with inside | ⟨_, _, _, _, storing, finished, rfl⟩
      · cases inside with
        | here _ => exact remembers_nil looked.once
        | ask _ _ rest =>
          cases rest with
          | here _ => exact remembers_cache looked.once
      · obtain ⟨_, _, rfl, _⟩ := Completes.of_perform storing
        cases finished with
        | here _ => exact remembers_cache looked.once

theorem fetchIpinfo_keeps {ip : String} {value : Option IpDetails} (unknown : knownIn start ip = [])
    (completes : HandlerCompletes start (fetchIpinfo ip) trace final value) :
    knownIn final = fun ip => knownIn start ip ++ answersTo ip trace := by
  obtain ⟨_, _, found, _, looking, later, rfl⟩ := Completes.split completes
  obtain ⟨asked, _, rfl, quiet, answered, onward⟩ := Completes.of_perform looking
  change Answers asked (.lookupIpinfo ip) found _ at answered
  cases answered
  cases found with
  | none =>
    obtain ⟨rfl, done, _⟩ := Completes.of_done later
    rw [knownIn_drift done, knownIn_drift onward, knownIn_drift quiet]
    simp [answersTo, answerTo]
  | some details =>
    obtain ⟨_, _, _, _, storing, finished, rfl⟩ := Completes.split later
    obtain ⟨asking, _, rfl, waited, stored, settled⟩ := Completes.of_perform storing
    obtain ⟨rfl, done, _⟩ := Completes.of_done finished
    change Answers asking (.cacheIpinfo ip details) _ _ at stored
    cases stored
    have same : knownIn asking = knownIn start := by
      rw [knownIn_drift waited, knownIn_drift onward, knownIn_drift quiet]
    funext other
    rw [knownIn_drift done, knownIn_drift settled, knownIn_insert asking ip details (same ▸ unknown), same]
    by_cases mine : ip = other <;> simp [answersTo, answerTo, mine]

/-- An address that is not in the cache is looked up, and what is found is cached. -/
theorem thrifty_lookupIpinfo (ip : String) : Thrifty (lookupIpinfo ip) where
  remembers {start trace final} reaches := by
    rcases Reaches.split reaches with inside | ⟨_, middle, cached, rest, reading, later, rfl⟩
    · cases inside with
      | here _ => exact remembers_nil (knownIn_length start)
      | ask quiet answered rest =>
        cases rest with
        | here _ => exact remembers_cached (knownIn_drift quiet) (Answers.recalled answered).1
    · obtain ⟨asked, _, rfl, quiet, answered, onward⟩ := Completes.of_perform reading
      obtain ⟨recalled, rfl⟩ := Answers.recalled answered
      have read : Remembers (knownIn start) [⟨asked, .cachedIpinfo ip, cached⟩] :=
        remembers_cached (knownIn_drift quiet) recalled
      refine read.append ?_
      cases cached with
      | some details =>
        cases later with
        | here _ => exact remembers_nil read.once
      | none =>
        have fetched := fetchIpinfo_remembers (by rw [knownIn_drift onward, knownIn, ← recalled]; rfl) later
        rw [knownIn_drift onward, knownIn_drift quiet] at fetched
        simpa [answersTo_cached] using fetched
  keeps {start trace final value} completes := by
    obtain ⟨_, middle, cached, _, reading, later, rfl⟩ := Completes.split completes
    obtain ⟨asked, _, rfl, quiet, answered, onward⟩ := Completes.of_perform reading
    obtain ⟨recalled, rfl⟩ := Answers.recalled answered
    have same : knownIn middle = knownIn start := by
      rw [knownIn_drift onward, knownIn_drift quiet]
    cases cached with
    | some details =>
      obtain ⟨rfl, done, _⟩ := Completes.of_done later
      rw [knownIn_drift done, same]
      simp [answersTo_cached]
    | none =>
      rw [fetchIpinfo_keeps (by rw [knownIn_drift onward, knownIn, ← recalled]; rfl) later, same]
      funext other
      rw [answersTo_append, answersTo_cached, List.nil_append]

theorem thrifty_queryByReachable (addresses : List EndpointInfo) : Thrifty (queryByReachable addresses) := by
  induction addresses with
  | nil => exact thrifty_pure none
  | cons addr rest inductionHypothesis =>
    refine (thrifty_lookupIpinfo _).andThen fun found => ?_
    cases found with
    | none => exact inductionHypothesis
    | some details => exact thrifty_pure (some details)

theorem thrifty_setIpDetails (peerId : String) (ip : IpDetails) : Thrifty (setIpDetails peerId ip) :=
  (touches_setIpDetails peerId ip).thrifty

theorem thrifty_locateOnline (peer : PeerInfo) : Thrifty (locateOnline config serde peer) := by
  unfold locateOnline
  split
  · exact thrifty_pure ()
  · rename_i addr _
    refine (touches_placeOnline peer addr : Touches false _ _ _).thrifty.andThen fun _ =>
      (thrifty_lookupIpinfo _).andThen fun found => ?_
    cases found with
    | none => exact thrifty_pure ()
    | some ip => exact thrifty_setIpDetails _ ip

theorem thrifty_locateReachable (peer : ReachableInfo) : Thrifty (locateReachable peer) := by
  refine (touches_knownCountry _ : Touches false _ _ _).thrifty.andThen fun country => ?_
  split
  · refine (thrifty_queryByReachable _).andThen fun found => ?_
    cases found with
    | none => exact thrifty_pure ()
    | some ip => exact thrifty_setIpDetails _ ip
  · exact thrifty_pure ()

theorem setLastUpdate_offline : setLastUpdate.Within MarciCall.Offline :=
  ⟨trivial, fun _ => within_unwrapOr (within_send trivial)⟩

theorem handleTick_offline : (handleTick serde).Within MarciCall.Offline := by
  refine (within_command trivial).andThen fun keys => ?_
  refine Program.Within.andThen (Program.Within.forEach fun peerId _ => ?_) fun _ => setLastUpdate_offline
  refine Program.Within.andThen ?_ fun metaInfo => within_orReturn ⟨trivial, fun _ => trivial⟩
  exact (within_unwrapOr (within_send trivial)).andThen fun _ =>
    (within_unwrapOr (within_getString trivial)).andThen fun _ => trivial

theorem thrifty_handle (message : Message) : Thrifty (handle config serde message) := by
  cases message with
  | online peer =>
    exact (touches_markOnline peer : Touches false _ _ _).thrifty.andThen fun _ =>
      (thrifty_locateOnline peer).andThen fun _ => (touches_settleOnline peer : Touches false _ _ _).thrifty
  | unknown peer =>
    exact (touches_markUnknown peer.peerId : Touches false _ _ _).thrifty.andThen fun _ =>
      (touches_setLastSeen peer.peerId : Touches false _ _ _).thrifty
  | reachable peer =>
    exact (touches_recordReachable peer : Touches false _ _ _).thrifty.andThen fun _ =>
      (touches_setLastSeen peer.peer.peerId : Touches false _ _ _).thrifty.andThen fun _ =>
        (thrifty_locateReachable peer).andThen fun _ => thrifty_offline setLastUpdate_offline
  | tick => exact thrifty_offline handleTick_offline

/-- The calls of the process that is running, oldest first. -/
def lifetime (attempts : List MarciAttempt) : HandlerTrace :=
  ((attempts.takeWhile fun attempt => !attempt.aborted).reverse.map Attempt.trace).flatten

theorem lifetime_finish (message : Message) (before : State) (trace : HandlerTrace) (attempts : List MarciAttempt) :
    lifetime (⟨message, before, trace, false⟩ :: attempts) = lifetime attempts ++ trace := by
  simp [lifetime]

/-- The cache holds what was answered since the process was started. -/
theorem run_keeps {attempts : List MarciAttempt} {now : Nat}
    (run : MarciRestartRun config serde (.initial now) attempts after) :
    Remembers (fun _ => []) (lifetime attempts) ∧ knownIn after = fun ip => answersTo ip (lifetime attempts) := by
  have fresh : Remembers (fun _ => []) [] := remembers_nil fun _ => Nat.zero_le 1
  induction run with
  | start => exact ⟨fresh, rfl⟩
  | finish _ completes inductionHypothesis =>
    obtain ⟨earlier, cached⟩ := inductionHypothesis
    have remembered := (thrifty_handle _).remembers completes.reaches
    rw [lifetime_finish, (thrifty_handle _).keeps completes]
    rw [cached] at remembered ⊢
    refine ⟨earlier.append (by simpa using remembered), ?_⟩
    funext ip
    rw [answersTo_append]
  | abort _ _ _ => exact ⟨fresh, rfl⟩

/-- From its start to any turn, also to one in which it is stopped, a process gets
at most one answer about each address, and its cache gives it nothing but this answer. -/
theorem lookups_remembered {earlier : List MarciAttempt} {attempt : MarciAttempt} {now : Nat}
    (run : MarciRestartRun config serde (.initial now) (attempt :: earlier) after) :
    Remembers (fun _ => []) (lifetime earlier ++ attempt.trace) := by
  cases run with
  | finish before completes =>
    obtain ⟨remembered, cached⟩ := run_keeps before
    have further := (thrifty_handle _).remembers completes.reaches
    rw [cached] at further
    exact remembered.append (by simpa using further)
  | abort before reaches =>
    obtain ⟨remembered, cached⟩ := run_keeps before
    have further := (thrifty_handle _).remembers reaches
    rw [cached] at further
    exact remembered.append (by simpa using further)

/-- Two peers at one address are located, the second from the cache. -/
def neighbourScript : List (Nat × Message × Option Nat) :=
  [(0, .online ⟨⟨"Qm", [sampleEndpoint], .mirana⟩, "0.1", true, false⟩, none),
    (5, .online ⟨⟨"Qn", [sampleEndpoint], .mirana⟩, "0.1", true, false⟩, none)]

def recalledIn (attempt : MarciAttempt) : Bool :=
  attempt.trace.any fun event =>
    match event with
    | ⟨_, .cachedIpinfo ip, some _⟩ => ip = "1.2.3.4"
    | _ => false

theorem lookups_remembered_neighbours : ∃ earlier attempt after,
    MarciRestartRun sampleConfig sampleSerde (.initial 0) (attempt :: earlier) after ∧
      recalledIn attempt = true ∧ (answersTo "1.2.3.4" (lifetime earlier ++ attempt.trace)).length = 1 ∧
      Remembers (fun _ => []) (lifetime earlier ++ attempt.trace) := by
  have reached : (playRestarts sampleConfig sampleSerde lookedUpSurroundings neighbourScript).any fun result =>
      decide (∃ attempt ∈ result.1.head?, recalledIn attempt = true ∧
        (answersTo "1.2.3.4" (lifetime result.1.tail ++ attempt.trace)).length = 1) := by
    decide
  obtain ⟨attempts, after, run, attempt, latest, recalled, once⟩ := playRestarts_reaches reached
  obtain ⟨earlier, rfl⟩ := List.head?_eq_some_iff.mp latest
  exact ⟨earlier, attempt, after, run, recalled, once, lookups_remembered run⟩

/-- The hosts whose place a message has looked up. -/
def Message.hosts : Message → List IpAddr
  | .online peer => peer.info.addresses.head?.toList.map EndpointInfo.address
  | .reachable peer => peer.peer.addresses.map EndpointInfo.address
  | _ => []

/-- Nothing is asked about other hosts, neither from the cache nor from ipinfo. -/
def MarciCall.AsksAbout (hosts : List IpAddr) : MarciCall → Prop
  | .cachedIpinfo ip | .lookupIpinfo ip => ∃ host ∈ hosts, host.toString = ip
  | _ => True

theorem asksAbout_offline {hosts : List IpAddr} {handler : Handler α} (offline : handler.Within MarciCall.Offline) :
    handler.Within (MarciCall.AsksAbout hosts) :=
  Program.Within.mono offline fun question free => by
    cases question with
    | cachedIpinfo ip => cases free
    | lookupIpinfo ip => cases free
    | _ => trivial

theorem asksAbout_lookupIpinfo {hosts : List IpAddr} {host : IpAddr} (listed : host ∈ hosts) :
    (lookupIpinfo host.toString).Within (MarciCall.AsksAbout hosts) := by
  refine ⟨⟨host, listed, rfl⟩, fun cached => ?_⟩
  cases cached with
  | some details => trivial
  | none =>
    refine ⟨⟨host, listed, rfl⟩, fun found => ?_⟩
    cases found with
    | none => trivial
    | some details => exact ⟨trivial, fun _ => trivial⟩

theorem asksAbout_queryByReachable {hosts : List IpAddr} {addresses : List EndpointInfo}
    (listed : addresses.map EndpointInfo.address ⊆ hosts) :
    (queryByReachable addresses).Within (MarciCall.AsksAbout hosts) := by
  induction addresses with
  | nil => trivial
  | cons addr rest inductionHypothesis =>
    rw [List.map_cons, List.cons_subset] at listed
    refine (asksAbout_lookupIpinfo listed.1).andThen fun found => ?_
    cases found with
    | none => exact inductionHypothesis listed.2
    | some details => trivial

theorem asksAbout_locateOnline (peer : PeerInfo) :
    (locateOnline config serde peer).Within (MarciCall.AsksAbout (Message.online peer).hosts) := by
  unfold locateOnline
  split
  · trivial
  · rename_i addr front
    have listed : addr.address ∈ (Message.online peer).hosts := by
      simp [Message.hosts, front]
    refine (asksAbout_offline (touches_placeOnline peer addr : Touches false _ _ _).offline).andThen fun _ =>
      (asksAbout_lookupIpinfo listed).andThen fun found => ?_
    cases found with
    | none => trivial
    | some ip => exact asksAbout_offline (touches_setIpDetails _ ip : Touches false _ _ _).offline

theorem asksAbout_locateReachable (peer : ReachableInfo) :
    (locateReachable peer).Within (MarciCall.AsksAbout (Message.reachable peer).hosts) := by
  refine (asksAbout_offline (touches_knownCountry _ : Touches false _ _ _).offline).andThen fun country => ?_
  split
  · refine (asksAbout_queryByReachable (List.Subset.refl _)).andThen fun found => ?_
    cases found with
    | none => trivial
    | some ip => exact asksAbout_offline (touches_setIpDetails _ ip : Touches false _ _ _).offline
  · trivial

/-- A turn asks about the hosts of its message only. -/
theorem asksAbout_handle (message : Message) :
    (handle config serde message).Within (MarciCall.AsksAbout message.hosts) := by
  cases message with
  | online peer =>
    exact (asksAbout_offline (touches_markOnline peer : Touches false _ _ _).offline).andThen fun _ =>
      (asksAbout_locateOnline peer).andThen fun _ =>
        asksAbout_offline (touches_settleOnline peer : Touches false _ _ _).offline
  | unknown peer =>
    exact (asksAbout_offline (touches_markUnknown peer.peerId : Touches false _ _ _).offline).andThen fun _ =>
      asksAbout_offline (touches_setLastSeen peer.peerId : Touches false _ _ _).offline
  | reachable peer =>
    exact (asksAbout_offline (touches_recordReachable peer : Touches false _ _ _).offline).andThen fun _ =>
      (asksAbout_offline (touches_setLastSeen peer.peer.peerId : Touches false _ _ _).offline).andThen fun _ =>
        (asksAbout_locateReachable peer).andThen fun _ => asksAbout_offline setLastUpdate_offline
  | tick => exact asksAbout_offline handleTick_offline

/-- In the course of the attempts, ipinfo gave these details for the host. -/
def AnsweredFor (attempts : List MarciAttempt) (host : IpAddr) (details : IpDetails) : Prop :=
  ∃ attempt ∈ attempts, details ∈ answersTo host.toString attempt.trace

variable {attempts : List MarciAttempt} {attempt : MarciAttempt} {message : Message} {now : Nat} {peerId : String}

theorem answersTo_lifetime {ip : String} {details : IpDetails} (answered : details ∈ answersTo ip (lifetime attempts)) :
    ∃ attempt ∈ attempts, details ∈ answersTo ip attempt.trace := by
  obtain ⟨event, member, found⟩ := List.mem_filterMap.mp answered
  obtain ⟨trace, listed, inside⟩ := List.mem_flatten.mp member
  obtain ⟨attempt, present, rfl⟩ := List.mem_map.mp listed
  have taken := List.mem_reverse.mp present
  exact ⟨attempt, (List.takeWhile_sublist _).subset taken, List.mem_filterMap.mpr ⟨event, inside, found⟩⟩

/-- What a turn finds is the answer of ipinfo about a host of its message. -/
theorem found_answeredFor (run : MarciRestartRun config serde (.initial now) attempts before)
    (reaches : Reaches world before (handle config serde message) trace after) {details : IpDetails}
    (found : ∃ event ∈ trace, foundIp event.question event.reply = some details) :
    ∃ host ∈ message.hosts, AnsweredFor (⟨message, before, trace, aborted⟩ :: attempts) host details := by
  obtain ⟨⟨asked, question, reply⟩, member, hit⟩ := found
  have about := Reaches.permitted (asksAbout_handle message) reaches _ member
  have here : ∀ {ip}, details ∈ answersTo ip trace → ∃ attempt ∈ (⟨message, before, trace, aborted⟩ :: attempts),
      details ∈ answersTo ip attempt.trace := fun answered => ⟨_, List.mem_cons_self, answered⟩
  cases question with
  | cachedIpinfo ip =>
    obtain ⟨host, listed, rfl⟩ := about
    refine ⟨host, listed, ?_⟩
    obtain ⟨first, last, rfl⟩ := List.append_of_mem member
    obtain ⟨_, cached⟩ := run_keeps run
    have recalled := ((thrifty_handle message).remembers reaches).recalls rfl
    rw [cached] at recalled
    have known : details ∈ answersTo host.toString (lifetime attempts) ++ answersTo host.toString first :=
      List.mem_of_mem_head? (recalled.symm.trans hit)
    rcases List.mem_append.mp known with earlier | now
    · obtain ⟨attempt, present, answered⟩ := answersTo_lifetime earlier
      exact ⟨attempt, List.mem_cons_of_mem _ present, answered⟩
    · refine here ?_
      rw [answersTo_append]
      exact List.mem_append_left _ now
  | lookupIpinfo ip =>
    obtain ⟨host, listed, rfl⟩ := about
    exact ⟨host, listed, here (List.mem_filterMap.mpr ⟨_, member, (if_pos rfl).trans hit⟩)⟩
  | redis _ | systemTime | cacheIpinfo _ _ | publish _ _ => cases hit

/-- A message about the peer named a host for which ipinfo gave this text. -/
def Told (attempts : List MarciAttempt) (peerId key text : String) : Prop :=
  ∃ attempt ∈ attempts, attempt.message.subject = peerId ∧ ∃ host ∈ attempt.message.hosts,
    ∃ details, AnsweredFor attempts host details ∧ (key, text) ∈ ipRecords peerId details

theorem AnsweredFor.cons {host : IpAddr} {details : IpDetails} (answered : AnsweredFor attempts host details) :
    AnsweredFor (attempt :: attempts) host details := by
  obtain ⟨other, member, given⟩ := answered
  exact ⟨other, List.mem_cons_of_mem _ member, given⟩

theorem Told.cons {key text : String} (placed : Told attempts peerId key text) :
    Told (attempt :: attempts) peerId key text := by
  obtain ⟨other, member, about, host, listed, details, answered, record⟩ := placed
  exact ⟨other, List.mem_cons_of_mem _ member, about, host, listed, details, answered.cons, record⟩

/-- What a place record holds has been answered for the peer. -/
def PlacesAnswered (peerId : String) (attempts : List MarciAttempt) (store : Store) : Prop :=
  ∀ format ∈ locationFormats, ∀ entry, store.find? (format.key peerId) = some entry →
    ∃ text, entry = ⟨.text text, none⟩ ∧ Told attempts peerId (format.key peerId) text

theorem PlacesAnswered.timeless {store : Store} (places : PlacesAnswered peerId attempts store) {format : KeyFormat}
    (place : format ∈ locationFormats) : Timeless store (format.key peerId) := by
  intro entry found
  obtain ⟨_, rfl, _⟩ := places format place entry found
  rfl

theorem placesAnswered_reached (run : MarciRestartRun config serde (.initial now) attempts before)
    (reaches : Reaches world before (handle config serde message) trace after)
    (places : PlacesAnswered peerId attempts before.redis) :
    PlacesAnswered peerId (⟨message, before, trace, aborted⟩ :: attempts) after.redis := by
  intro format place entry found
  have fixes := fixed_events peerId reaches (List.mem_cons_of_mem .peerNetwork place)
  rcases fixed_along reaches.path (places.timeless place) fixes with
    ⟨_, same⟩ | ⟨event, present, text, same, stored⟩
  · obtain ⟨text, shape, placed⟩ := places format place entry (same ▸ found)
    exact ⟨text, shape, placed.cons⟩
  · have written : event.question.writes = some (format.key peerId) := by rw [same]; rfl
    obtain rfl := Option.some.inj (found.symm.trans stored)
    refine ⟨text, rfl, ⟨message, before, trace, aborted⟩, List.mem_cons_self, ?_, ?_⟩
    · by_contra other
      exact unlocated_handle (.inl (Ne.symm other)) reaches event present format place written
    · have relocates : Relocates false peerId trace := handle_relocates reaches.proceeds
      rcases relocates with unlocated | ⟨details, filled⟩
      · exact absurd written (unlocated event present format place)
      · obtain ⟨host, listed, answered⟩ := found_answeredFor run reaches filled.found
        obtain ⟨record, among, call⟩ := List.mem_map.mp (filled.written event present format place written)
        obtain ⟨key, value⟩ := record
        obtain ⟨rfl, rfl⟩ : key = format.key peerId ∧ value = text := by
          simpa [same] using call
        exact ⟨host, listed, details, answered, among⟩

/-- After any number of interruptions at any points, each single place record of a
peer says what ipinfo has answered about a host that a message about this very
peer gave for it. -/
theorem places_answered (run : MarciRestartRun config serde (.initial now) attempts after) (peerId : String) :
    PlacesAnswered peerId attempts after.redis := by
  induction run with
  | start => exact fun _ _ _ found => by cases found
  | finish earlier completes inductionHypothesis =>
    exact placesAnswered_reached earlier completes.reaches inductionHypothesis
  | abort earlier reaches inductionHypothesis =>
    -- the next process starts on the store as it is
    intro format place entry found
    exact placesAnswered_reached earlier reaches inductionHypothesis format place entry found

/-- The country of the attempt that stopped right after it. -/
theorem places_answered_torn : ∃ attempts after,
    MarciRestartRun sampleConfig sampleSerde (.initial 0) attempts after ∧
      after.redis.Live (KeyFormat.peerCountry.key "Qm") ∧ PlacesAnswered "Qm" attempts after.redis := by
  have reached : (playRestarts sampleConfig sampleSerde lookedUpSurroundings tornScript).any fun result =>
      decide (result.2.redis.Live (KeyFormat.peerCountry.key "Qm")) := by
    decide
  obtain ⟨attempts, after, run, live⟩ := playRestarts_reaches reached
  exact ⟨attempts, after, run, live, places_answered run "Qm"⟩

end CkbDiscovery.Marci
