import CkbDiscovery.Marci.Footprint

/-! Messages processed at one instant: the clock stands still, every command
succeeds and an address is looked up to the same details whenever it is asked
for. Then a turn is a computation on the store alone. -/

namespace CkbDiscovery.Marci

open Effect Redis

variable (surroundings : Surroundings) (config : Config) (serde : Serde)

/-- The state after a turn that no drift interrupts. -/
def process (message : Message) (state : State) : Option State :=
  ((handle config serde message).run (respond surroundings) state).map Prod.snd

/-- What has been looked up before is what would be looked up. -/
def Surroundings.Agrees (cache : Finmap fun _ : String => IpDetails) : Prop :=
  ∀ ip details, cache.lookup ip = some details → surroundings.ipinfo ip = some details

/-- The same answers without a cache. -/
def settle : Responder Store MarciCall.Reply
  | store, .redis command =>
    (command.step surroundings.order store).map fun result => (.ok result.1, result.2)
  | store, .systemTime => some (surroundings.clock, store)
  | store, .cachedIpinfo ip => some (surroundings.ipinfo ip, store)
  | store, .cacheIpinfo _ _ => some ((), store)
  | store, .lookupIpinfo ip => some (surroundings.ipinfo ip, store)
  | store, .publish _ _ => some (.ok (), store)

/-- A turn as a computation on the store. -/
def turnOf (message : Message) : StateT Store Option Unit :=
  (handle config serde message).run (settle surroundings)

variable {surroundings config serde} {message : Message} {state after : State}

/-- It is one of the turns of Marci's loop. -/
theorem process_completes (processed : process surroundings config serde message state = some after) :
    ∃ trace, HandlerCompletes state (handle config serde message) trace after () := by
  unfold process at processed
  rw [run_eq_replay] at processed
  obtain ⟨result, same, rfl⟩ := Option.map_eq_some_iff.mp processed
  obtain ⟨⟨trace, last, value⟩, replayed, rfl⟩ := Option.map_eq_some_iff.mp same
  exact ⟨trace, Completes.of_replay (respond_faithful surroundings) replayed⟩

/-- The cache makes no difference to the result and the store. -/
structure Transparent (surroundings : Surroundings) (handler : Handler α) : Prop where
  same : ∀ state, surroundings.Agrees state.ipinfoCache →
    (handler.run (respond surroundings) state).map (fun result => (result.1, result.2.redis)) =
      handler.run (settle surroundings) state.redis
  agrees : ∀ {state value after}, surroundings.Agrees state.ipinfoCache →
    handler.run (respond surroundings) state = some (value, after) →
    surroundings.Agrees after.ipinfoCache

theorem Transparent.andThen {handler : Handler α} {next : α → Handler β}
    (first : Transparent surroundings handler)
    (rest : ∀ value, Transparent surroundings (next value)) :
    Transparent surroundings (handler >>= next) := by
  constructor
  · intro state agrees
    have head := first.same state agrees
    rw [run_bind, run_bind]
    change ((handler.run (respond surroundings) state) >>= fun result =>
        (next result.1).run (respond surroundings) result.2).map _ =
      (handler.run (settle surroundings) state.redis) >>= fun result =>
        (next result.1).run (settle surroundings) result.2
    rw [← head]
    cases ran : handler.run (respond surroundings) state with
    | none => rfl
    | some result => exact (rest result.1).same result.2 (first.agrees agrees ran)
  · intro state value after agrees ran
    rw [run_bind] at ran
    obtain ⟨result, ranFirst, ranRest⟩ := Option.bind_eq_some_iff.mp ran
    exact (rest result.1).agrees (first.agrees agrees ranFirst) ranRest

/-- Calls about the addresses of peers. -/
def MarciCall.locates : MarciCall → Bool
  | .cachedIpinfo _ | .cacheIpinfo .. | .lookupIpinfo _ => true
  | _ => false

/-- Handlers that locate nobody do not know the cache. -/
theorem transparent_of_within {handler : Handler α}
    (within : handler.Within fun question => question.locates = false) :
    Transparent surroundings handler := by
  induction handler with
  | done value => exact ⟨fun _ _ => rfl, fun agrees ran => by cases ran; exact agrees⟩
  | stop => exact ⟨fun _ _ => rfl, fun _ ran => by cases ran⟩
  | ask question next inductionHypothesis =>
    have rest := fun reply => inductionHypothesis reply (within.2 reply)
    have asked : Transparent surroundings (ask question) := by
      cases question with
      | redis command =>
        constructor
        · intro state _
          rw [ask, run_perform, run_perform]
          change (respond surroundings state (.redis command)).map _ =
            settle surroundings state.redis (.redis command)
          simp only [respond, settle, Command.step]
          cases execute surroundings.order state.redis command <;> rfl
        · intro state value after agrees ran
          rw [ask, run_perform] at ran
          change respond surroundings state (.redis command) = _ at ran
          simp only [respond] at ran
          cases executed : execute surroundings.order state.redis command with
          | error error =>
            rw [executed] at ran
            cases ran
          | ok result =>
            rw [executed] at ran
            cases ran
            exact agrees
      | systemTime => exact ⟨fun _ _ => rfl, fun agrees ran => by cases ran; exact agrees⟩
      | publish topic payload => exact ⟨fun _ _ => rfl, fun agrees ran => by cases ran; exact agrees⟩
      | cachedIpinfo ip | cacheIpinfo ip details | lookupIpinfo ip => cases within.1
    exact asked.andThen rest

theorem Touches.transparent {formats : List KeyFormat} {peerId : String} {handler : Handler α}
    (touches : Touches false formats peerId handler) : Transparent surroundings handler := by
  apply transparent_of_within
  apply Program.Within.mono touches
  intro question about
  cases question with
  | cachedIpinfo ip | cacheIpinfo ip details | lookupIpinfo ip => cases about
  | _ => rfl

/-- A lookup is a function of the address. -/
theorem run_lookupIpinfo (ip : String) :
    (lookupIpinfo ip).run (settle surroundings) = pure (surroundings.ipinfo ip) := by
  funext store
  rw [lookupIpinfo, ask, run_perform_bind]
  simp only [settle, Option.bind_some]
  cases found : surroundings.ipinfo ip with
  | some details => rfl
  | none =>
    dsimp only
    rw [ask, run_perform_bind]
    simp only [settle, found, Option.bind_some]
    rfl

theorem transparent_lookupIpinfo (ip : String) : Transparent surroundings (lookupIpinfo ip) := by
  have ran : ∀ state, surroundings.Agrees state.ipinfoCache → ∃ cache, surroundings.Agrees cache ∧
      (lookupIpinfo ip).run (respond surroundings) state =
        some (surroundings.ipinfo ip, { state with ipinfoCache := cache }) := by
    intro state agrees
    cases cached : state.ipinfoCache.lookup ip with
    | some details =>
      refine ⟨state.ipinfoCache, agrees, ?_⟩
      rw [agrees ip details cached, lookupIpinfo, ask, run_perform_bind]
      simp only [respond, cached, Option.bind_some]
      rfl
    | none =>
      cases found : surroundings.ipinfo ip with
      | none =>
        refine ⟨state.ipinfoCache, agrees, ?_⟩
        rw [lookupIpinfo, ask, run_perform_bind]
        simp only [respond, cached, Option.bind_some]
        rw [ask, run_perform_bind]
        simp only [respond, found, Option.bind_some]
        rfl
      | some details =>
        refine ⟨state.ipinfoCache.insert ip details, ?_, ?_⟩
        · intro other known located
          by_cases same : other = ip
          · subst same
            rw [Finmap.lookup_insert] at located
            rw [found, located]
          · rw [Finmap.lookup_insert_of_ne _ same] at located
            exact agrees other known located
        · rw [lookupIpinfo, ask, run_perform_bind]
          simp only [respond, cached, Option.bind_some]
          rw [ask, run_perform_bind]
          simp only [respond, found, Option.bind_some]
          rfl
  constructor
  · intro state agrees
    obtain ⟨cache, _, same⟩ := ran state agrees
    rw [same, run_lookupIpinfo]
    rfl
  · intro state value after agrees ran'
    obtain ⟨cache, kept, same⟩ := ran state agrees
    rw [same] at ran'
    cases ran'
    exact kept

theorem transparent_pure (value : α) : Transparent surroundings (pure value) :=
  transparent_of_within trivial

theorem transparent_queryByReachable (addresses : List EndpointInfo) :
    Transparent surroundings (queryByReachable addresses) := by
  induction addresses with
  | nil => exact transparent_pure none
  | cons addr rest inductionHypothesis =>
    apply (transparent_lookupIpinfo _).andThen
    intro found
    cases found with
    | none => exact inductionHypothesis
    | some details => exact transparent_pure (some details)

theorem transparent_setIpDetails (peerId : String) (found : Option IpDetails) :
    Transparent surroundings (match found with
      | none => pure ()
      | some ip => setIpDetails peerId ip : Handler Unit) := by
  cases found with
  | none => exact transparent_pure ()
  | some ip => exact (touches_setIpDetails peerId ip).transparent

theorem transparent_locateOnline (peer : PeerInfo) :
    Transparent surroundings (locateOnline config serde peer) := by
  unfold locateOnline
  split
  · exact transparent_pure ()
  · rename_i addr _
    exact (touches_placeOnline peer addr : Touches false _ _ _).transparent.andThen fun _ =>
      (transparent_lookupIpinfo _).andThen fun found => transparent_setIpDetails _ found

theorem transparent_locateReachable (peer : ReachableInfo) :
    Transparent surroundings (locateReachable peer) := by
  apply (touches_knownCountry _ : Touches false _ _ _).transparent.andThen
  intro country
  split
  · exact (transparent_queryByReachable _).andThen fun found => transparent_setIpDetails _ found
  · exact transparent_pure ()

theorem transparent_setLastUpdate : Transparent surroundings setLastUpdate := by
  apply transparent_of_within
  refine ⟨rfl, fun _ => ⟨rfl, fun reply => ?_⟩⟩
  cases reply <;> trivial

theorem transparent_handle (aboutPeer : message ≠ .tick) :
    Transparent surroundings (handle config serde message) := by
  cases message with
  | online peer =>
    exact (touches_markOnline peer).transparent.andThen fun _ =>
      (transparent_locateOnline peer).andThen fun _ => (touches_settleOnline peer).transparent
  | unknown peer =>
    exact (touches_markUnknown peer.peerId).transparent.andThen fun _ =>
      (touches_setLastSeen peer.peerId).transparent
  | reachable peer =>
    exact (touches_recordReachable peer).transparent.andThen fun _ =>
      (touches_setLastSeen peer.peer.peerId).transparent.andThen fun _ =>
      (transparent_locateReachable peer).andThen fun _ => transparent_setLastUpdate
  | tick => exact absurd rfl aboutPeer

/-- The store after a turn is that of the computation on the store. -/
theorem process_redis (aboutPeer : message ≠ .tick) (agrees : surroundings.Agrees state.ipinfoCache) :
    (process surroundings config serde message state).map State.redis =
      (turnOf surroundings config serde message state.redis).map Prod.snd := by
  have transparent : Transparent surroundings (handle config serde message) :=
    transparent_handle aboutPeer
  have same := transparent.same state agrees
  rw [turnOf, ← same, process, Option.map_map, Option.map_map]
  rfl

theorem process_agrees (aboutPeer : message ≠ .tick) (agrees : surroundings.Agrees state.ipinfoCache)
    (processed : process surroundings config serde message state = some after) :
    surroundings.Agrees after.ipinfoCache := by
  obtain ⟨⟨value, last⟩, ran, rfl⟩ := Option.map_eq_some_iff.mp processed
  exact (transparent_handle aboutPeer).agrees agrees ran

def MarciCall.stored : MarciCall → Bool
  | .redis _ => true
  | _ => false

/-- Answers that leave the store alone may be given at any time. -/
theorem step_commutes_free {question : MarciCall} (free : question.stored = false)
    (second : StateT Store Option β) : Commutes ((settle surroundings).step question) second := by
  cases question with
  | redis command => cases free
  | systemTime => exact .pure _ second
  | cachedIpinfo ip => exact .pure _ second
  | cacheIpinfo ip details => exact .pure _ second
  | lookupIpinfo ip => exact .pure _ second
  | publish topic payload => exact .pure _ second

theorem step_redis (command : Command) :
    (settle surroundings).step (.redis command) =
      command.step surroundings.order >>= fun reply => pure (.ok reply) := by
  funext store
  change (command.step surroundings.order store).map _ =
    (command.step surroundings.order store).bind fun result =>
      some ((Except.ok result.1 : Except RedisError command.Reply), result.2)
  cases command.step surroundings.order store <;> rfl

/-- Commands about different keys may be exchanged. -/
theorem settle_commutes {first second : Command} {left right : String}
    (leftTouched : first.touches = some left) (rightTouched : second.touches = some right)
    (different : left ≠ right) :
    Commutes ((settle surroundings).step (.redis first)) ((settle surroundings).step (.redis second)) := by
  rw [step_redis, step_redis]
  have commands := step_commutes surroundings.order leftTouched rightTouched different
  apply Commutes.bind _ fun reply => .pure _ _
  exact commands.bind_right fun reply => (Commutes.pure _ _).symm

/-- Handlers about different records may be exchanged. -/
theorem Touches.commutes {first : Handler α} {second : Handler β} {leftLocates rightLocates : Bool}
    {leftFormats rightFormats : List KeyFormat} {left right : String}
    (leftTouches : Touches leftLocates leftFormats left first)
    (rightTouches : Touches rightLocates rightFormats right second)
    (apart : left ≠ right ∨ leftFormats.Disjoint rightFormats) :
    Commutes (first.run (settle surroundings)) (second.run (settle surroundings)) := by
  refine run_commutes (fun question about => ?_) leftTouches
  apply Commutes.symm
  refine run_commutes (fun other otherAbout => ?_) rightTouches
  cases question with
  | redis command =>
    cases other with
    | redis otherCommand =>
      obtain ⟨format, member, touched⟩ := about
      obtain ⟨otherFormat, otherMember, otherTouched⟩ := otherAbout
      apply settle_commutes otherTouched touched
      intro same
      obtain ⟨rfl, rfl⟩ := KeyFormat.key_eq_key.mp same
      rcases apart with different | disjoint
      · exact different rfl
      · exact disjoint member otherMember
    | _ => exact step_commutes_free rfl _
  | _ => exact (step_commutes_free rfl _).symm

/-- The stamp of the service is apart from all records of peers. -/
theorem setLastUpdate_commutes {formats : List KeyFormat} {peerId : String} {question : MarciCall}
    (about : question.About true formats peerId) :
    Commutes (setLastUpdate.run (settle surroundings)) ((settle surroundings).step question) := by
  have within : setLastUpdate.Within fun asked =>
      asked.stored = false ∨ ∃ value, asked = .redis (.set serviceLastUpdateKey value) := by
    refine ⟨.inl rfl, fun now => ⟨.inr ⟨_, rfl⟩, fun reply => ?_⟩⟩
    cases reply <;> trivial
  refine run_commutes (fun asked permitted => ?_) within
  rcases permitted with free | ⟨value, rfl⟩
  · exact step_commutes_free free _
  · cases question with
    | redis command =>
      obtain ⟨format, _, touched⟩ := about
      exact settle_commutes rfl touched (Ne.symm (key_ne_serviceLastUpdate format peerId))
    | _ => exact (step_commutes_free rfl _).symm

end CkbDiscovery.Marci
