import CkbDiscovery.Addresses
import CkbDiscovery.Json

/-! The messages as JSON values, as the derived implementations write and read
them, and their texts. -/

namespace CkbDiscovery

/-- How the values of a type are written as JSON values and read from them. -/
structure Wire (α : Type) where
  write : α → Json
  read : Json → Option α

namespace Wire

variable {α : Type}

/-- What is written is read back, and not nested deeper than so many levels. -/
structure Faithful (wire : Wire α) (levels : Nat) : Prop where
  readsBack : ∀ value, wire.read (wire.write value) = some value
  shallow : ∀ value, (wire.write value).depth ≤ levels

def string : Wire String where
  write text := .string text
  read
    | .string text => some text
    | _ => none

def bool : Wire Bool where
  write value := .bool value
  read
    | .bool value => some value
    | _ => none

def u16 : Wire UInt16 where
  write value := .natural value.toNat
  read
    | .natural value => if value < 65536 then some (.ofNat value) else none
    | _ => none

/-- A host is the text that it is displayed as. -/
def ipAddr : Wire IpAddr where
  write host := .string host.toString
  read
    | .string text => IpAddr.fromStr text
    | _ => none

def vec (wire : Wire α) : Wire (List α) where
  write values := .array (values.map wire.write)
  read
    | .array items => items.mapM wire.read
    | _ => none

/-- The values given for the fields of a struct: in an object by name, with other
names skipped and none given twice, or in an array by place. -/
def fieldsOf (names : List String) : Json → Option (List (Option Json))
  | .object members => names.mapM fun name =>
    match members.filter fun member => member.1 = name with
    | [] => some none
    | [member] => some (some member.2)
    | _ => none
  | .array items =>
    if items.length ≤ names.length then
      some (items.map some ++ List.replicate (names.length - items.length) none)
    else none
  | _ => none

def required (wire : Wire α) (given : Option Json) : Option α := given.bind wire.read

/-- `#[serde(default)]` -/
def defaulted (wire : Wire α) (default : α) : Option Json → Option α
  | some json => wire.read json
  | none => some default

def endpointInfo : Wire EndpointInfo where
  write info := .object [("address", ipAddr.write info.address), ("port", u16.write info.port)]
  read json := do
    match ← fieldsOf ["address", "port"] json with
    | [address, port] =>
      let address ← ipAddr.required address
      let port ← u16.required port
      pure { address, port }
    | _ => none

def networkName : CKBNetworkType → String
  | .mirana => "Mirana"
  | .pudge => "Pudge"
  | .dev => "Dev"

def networkNamed : String → Option CKBNetworkType
  | "Mirana" => some .mirana
  | "Pudge" => some .pudge
  | "Dev" => some .dev
  | _ => none

/-- A variant is its name, or an object with only this name and no content. -/
def network : Wire CKBNetworkType where
  write variant := .string (networkName variant)
  read
    | .string name => networkNamed name
    | .object [(name, .null)] => networkNamed name
    | _ => none

def nodeMetaInfo : Wire NodeMetaInfo where
  write info := .object [("peer_id", string.write info.peerId),
    ("addresses", endpointInfo.vec.write info.addresses), ("network", network.write info.network)]
  read json := do
    match ← fieldsOf ["peer_id", "addresses", "network"] json with
    | [peerId, addresses, network] =>
      let peerId ← string.required peerId
      let addresses ← endpointInfo.vec.required addresses
      let network ← Wire.network.required network
      pure { peerId, addresses, network }
    | _ => none

def reachableInfo : Wire ReachableInfo where
  write info := .object [("peer", nodeMetaInfo.write info.peer), ("from", nodeMetaInfo.write info.from)]
  read json := do
    match ← fieldsOf ["peer", "from"] json with
    | [peer, reporter] =>
      let peer ← nodeMetaInfo.required peer
      let reporter ← nodeMetaInfo.required reporter
      pure { peer, «from» := reporter }
    | _ => none

def peerInfo : Wire PeerInfo where
  write info := .object [("info", nodeMetaInfo.write info.info), ("version", string.write info.version),
    ("full", bool.write info.full), ("is_ex", bool.write info.isEx)]
  read json := do
    match ← fieldsOf ["info", "version", "full", "is_ex"] json with
    | [info, version, full, isEx] =>
      let info ← nodeMetaInfo.required info
      let version ← string.defaulted "" version
      let full ← bool.defaulted false full
      let isEx ← bool.defaulted false isEx
      pure { info, version, full, isEx }
    | _ => none

/-- `serde_json::to_string` and `from_str`, on top of a codec for JSON values. -/
def codec (wire : Wire α) (text : Codec Json) : Codec α where
  toString value := text.toString (wire.write value)
  fromStr read := (text.fromStr read).bind wire.read

end Wire

def Serde.json (text : Codec Json) : Serde where
  endpointInfo := Wire.endpointInfo.codec text
  nodeMetaInfo := Wire.nodeMetaInfo.codec text
  reachableInfo := Wire.reachableInfo.codec text
  peerInfo := Wire.peerInfo.codec text

namespace Wire

variable {α : Type} {levels : Nat}

theorem faithful_string : string.Faithful 0 := ⟨fun _ => rfl, fun _ => Nat.le_refl 0⟩

theorem faithful_bool : bool.Faithful 0 := ⟨fun _ => rfl, fun _ => Nat.le_refl 0⟩

theorem faithful_u16 : u16.Faithful 0 where
  readsBack value := by simp [u16, value.toNat_lt]
  shallow _ := Nat.le_refl 0

theorem faithful_ipAddr : ipAddr.Faithful 0 := ⟨IpAddr.fromStr_toString, fun _ => Nat.le_refl 0⟩

theorem faithful_network : network.Faithful 0 where
  readsBack variant := by cases variant <;> rfl
  shallow _ := Nat.le_refl 0

theorem depthItems_map {wire : Wire α} (shallow : ∀ value, (wire.write value).depth ≤ levels) (values : List α) :
    Json.depthItems (values.map wire.write) ≤ levels := by
  induction values with
  | nil => exact Nat.zero_le _
  | cons value rest inductionHypothesis => exact Nat.max_le.mpr ⟨shallow value, inductionHypothesis⟩

theorem Faithful.vec {wire : Wire α} (faithful : wire.Faithful levels) : wire.vec.Faithful (levels + 1) where
  readsBack values := by
    change (values.map wire.write).mapM wire.read = some values
    induction values with
    | nil => rfl
    | cons value rest inductionHypothesis =>
      simp [List.mapM_cons, faithful.readsBack, inductionHypothesis]
  shallow values := Nat.succ_le_succ (depthItems_map faithful.shallow values)

theorem Faithful.required {wire : Wire α} (faithful : wire.Faithful levels) (value : α) :
    wire.required (some (wire.write value)) = some value :=
  faithful.readsBack value

theorem Faithful.defaulted {wire : Wire α} (faithful : wire.Faithful levels) (default value : α) :
    wire.defaulted default (some (wire.write value)) = some value :=
  faithful.readsBack value

theorem filter_name {members : List (String × Json)} (distinct : (members.map Prod.fst).Nodup)
    {member : String × Json} (present : member ∈ members) :
    (members.filter fun other => other.1 = member.1) = [member] := by
  induction members with
  | nil => cases present
  | cons other rest inductionHypothesis =>
    rw [List.map_cons, List.nodup_cons] at distinct
    rcases List.mem_cons.mp present with rfl | later
    · have alone : (rest.filter fun other => other.1 = member.1) = [] := by
        rw [List.filter_eq_nil_iff]
        intro other found same
        exact distinct.1 (of_decide_eq_true same ▸ List.mem_map_of_mem found)
      rw [List.filter_cons_of_pos (by simp), alone]
    · have different : other.1 ≠ member.1 := by
        intro same
        exact distinct.1 (same ▸ List.mem_map_of_mem later)
      rw [List.filter_cons_of_neg (by simpa using different), inductionHypothesis distinct.2 later]

/-- An object with just the fields gives each of them. -/
theorem fieldsOf_object (members : List (String × Json)) (distinct : (members.map Prod.fst).Nodup) :
    fieldsOf (members.map Prod.fst) (.object members) = some (members.map fun member => some member.2) := by
  have each : ∀ some : List (String × Json), some ⊆ members → (some.map Prod.fst).mapM (fun name =>
      match members.filter fun member => member.1 = name with
      | [] => Option.some none
      | [member] => Option.some (Option.some member.2)
      | _ => none) = Option.some (some.map fun member => Option.some member.2) := by
    intro some present
    induction some with
    | nil => rfl
    | cons member rest inductionHypothesis =>
      rw [List.cons_subset] at present
      rw [List.map_cons, List.mapM_cons, filter_name distinct present.1, inductionHypothesis present.2]
      rfl
  exact each members (List.Subset.refl _)

theorem faithful_endpointInfo : endpointInfo.Faithful 1 where
  readsBack info := by
    have given := fieldsOf_object [("address", ipAddr.write info.address), ("port", u16.write info.port)]
      (show ["address", "port"].Nodup by decide)
    simp only [List.map_cons, List.map_nil] at given
    have address := faithful_ipAddr.required info.address
    have port := faithful_u16.required info.port
    simp [endpointInfo, given, address, port]
  shallow _ := Nat.le_refl 1

theorem faithful_nodeMetaInfo : nodeMetaInfo.Faithful 3 where
  readsBack info := by
    have given := fieldsOf_object [("peer_id", string.write info.peerId),
      ("addresses", endpointInfo.vec.write info.addresses), ("network", network.write info.network)]
      (show ["peer_id", "addresses", "network"].Nodup by decide)
    simp only [List.map_cons, List.map_nil] at given
    have peerId := faithful_string.required info.peerId
    have addresses := faithful_endpointInfo.vec.required info.addresses
    have variant := faithful_network.required info.network
    simp [nodeMetaInfo, given, peerId, addresses, variant]
  shallow info := by
    have peerId := faithful_string.shallow info.peerId
    have addresses := faithful_endpointInfo.vec.shallow info.addresses
    have variant := faithful_network.shallow info.network
    simp only [nodeMetaInfo, Json.depth, Json.depthMembers]
    omega

theorem faithful_reachableInfo : reachableInfo.Faithful 4 where
  readsBack info := by
    have given := fieldsOf_object [("peer", nodeMetaInfo.write info.peer), ("from", nodeMetaInfo.write info.from)]
      (show ["peer", "from"].Nodup by decide)
    simp only [List.map_cons, List.map_nil] at given
    have peer := faithful_nodeMetaInfo.required info.peer
    have reporter := faithful_nodeMetaInfo.required info.from
    simp [reachableInfo, given, peer, reporter]
  shallow info := by
    have peer := faithful_nodeMetaInfo.shallow info.peer
    have reporter := faithful_nodeMetaInfo.shallow info.from
    simp only [reachableInfo, Json.depth, Json.depthMembers]
    omega

theorem faithful_peerInfo : peerInfo.Faithful 4 where
  readsBack info := by
    have given := fieldsOf_object [("info", nodeMetaInfo.write info.info), ("version", string.write info.version),
      ("full", bool.write info.full), ("is_ex", bool.write info.isEx)]
      (show ["info", "version", "full", "is_ex"].Nodup by decide)
    simp only [List.map_cons, List.map_nil] at given
    have described := faithful_nodeMetaInfo.required info.info
    have version := faithful_string.defaulted "" info.version
    have full := faithful_bool.defaulted false info.full
    have isEx := faithful_bool.defaulted false info.isEx
    simp [peerInfo, given, described, version, full, isEx]
  shallow info := by
    have described := faithful_nodeMetaInfo.shallow info.info
    have version := faithful_string.shallow info.version
    have full := faithful_bool.shallow info.full
    have isEx := faithful_bool.shallow info.isEx
    simp only [peerInfo, Json.depth, Json.depthMembers]
    omega

/-- A text codec that reads back what is not nested too deep reads back the messages. -/
theorem Faithful.codec {wire : Wire α} (faithful : wire.Faithful levels) {text : Codec Json} {limit : Nat}
    (reads : ∀ value : Json, value.depth ≤ limit → text.fromStr (text.toString value) = some value)
    (room : levels ≤ limit) : (wire.codec text).RoundTrips := by
  intro value
  change (text.fromStr (text.toString (wire.write value))).bind wire.read = some value
  rw [reads _ (Nat.le_trans (faithful.shallow value) room)]
  exact faithful.readsBack value

end Wire

variable {text : Codec Json}

/-- All messages and stored endpoints are read back from their texts, with the hosts
in them in whatever form they are displayed. -/
theorem messages_round_trip
    (reads : ∀ value : Json, value.depth ≤ 127 → text.fromStr (text.toString value) = some value) :
    (Serde.json text).endpointInfo.RoundTrips ∧ (Serde.json text).nodeMetaInfo.RoundTrips ∧
      (Serde.json text).reachableInfo.RoundTrips ∧ (Serde.json text).peerInfo.RoundTrips :=
  ⟨Wire.faithful_endpointInfo.codec reads (by decide), Wire.faithful_nodeMetaInfo.codec reads (by decide),
    Wire.faithful_reachableInfo.codec reads (by decide), Wire.faithful_peerInfo.codec reads (by decide)⟩

/-- Printed without spaces and parsed with the recursion limit of the library. -/
def printedJson : Codec Json where
  toString value := String.ofList value.print
  fromStr := Json.parse 127

theorem messages_round_trip_printed :
    (Serde.json printedJson).endpointInfo.RoundTrips ∧ (Serde.json printedJson).nodeMetaInfo.RoundTrips ∧
      (Serde.json printedJson).reachableInfo.RoundTrips ∧ (Serde.json printedJson).peerInfo.RoundTrips :=
  messages_round_trip fun _ shallow => Json.parse_print shallow

end CkbDiscovery
