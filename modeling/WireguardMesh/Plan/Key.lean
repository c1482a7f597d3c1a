import WireguardMesh.Core.PlanKey
import WireguardMesh.Foundation.Json
import WireguardMesh.Plan.Inputs
import WireguardMesh.Plan.Order

/-! # The fingerprint determines the inputs

The text that `PlanKey` hashes can be taken apart again: records and fields by their end
symbols, nodes and links by the slash in the third field, path choices and relay by the
number of fields. The one ambiguity is the transport of a node, which is left out when it
is empty, so that it cannot be told from a first route. Where no first route is a JSON
text, meshes with equal texts have equal inputs of planning (`peersFor_of_planKeyText`).
-/

namespace Core

open GoText Net Framing

/-- A text without the symbols that end fields and records. -/
def Plain (s : String) : Prop :=
  fieldEnd ∉ s.toList ∧ recordEnd ∉ s.toList

instance (s : String) : Decidable (Plain s) :=
  inferInstanceAs (Decidable (_ ∧ _))

def Node.texts (n : Node) : List String :=
  [n.id, n.publicKey, n.address, n.endpoint, n.publicV4, n.cluster, n.transport] ++ n.routes

def Link.texts (l : Link) : List String :=
  [l.fromNodeID, l.toNodeID] ++ l.allowedIPs

/-- What `PlanKey` takes for granted: IPv4 addresses, transports that are JSON, and texts without
control characters. -/
structure Mesh.KeyAssumptions (mesh : Mesh) : Prop where
  addresses : ∀ n ∈ mesh.nodes, (hostPrefix n.address).isSome = true
  transports : ∀ n ∈ mesh.nodes, n.transport ≠ "" → Json.valid n.transport.toList = true
  nodes : ∀ n ∈ mesh.nodes, ∀ s ∈ n.texts, Plain s
  links : ∀ l ∈ mesh.links, ∀ s ∈ l.texts, Plain s
  paths : ∀ id ∈ mesh.paths.keys, Plain id ∧ ∀ sub ∈ (mesh.paths.getD id ∅).keys,
    Plain sub ∧ Plain (mesh.paths.choice id sub)
  relay : ∀ r ∈ mesh.relay, Plain r.publicKey ∧ Plain r.host

instance (mesh : Mesh) : Decidable mesh.KeyAssumptions :=
  decidable_of_iff
    ((∀ n ∈ mesh.nodes, (hostPrefix n.address).isSome = true) ∧
      (∀ n ∈ mesh.nodes, n.transport ≠ "" → Json.valid n.transport.toList = true) ∧
      (∀ n ∈ mesh.nodes, ∀ s ∈ n.texts, Plain s) ∧ (∀ l ∈ mesh.links, ∀ s ∈ l.texts, Plain s) ∧
      (∀ id ∈ mesh.paths.keys, Plain id ∧ ∀ sub ∈ (mesh.paths.getD id ∅).keys,
        Plain sub ∧ Plain (mesh.paths.choice id sub)) ∧
      ∀ r ∈ mesh.relay, Plain r.publicKey ∧ Plain r.host)
    ⟨fun ⟨addresses, transports, nodes, links, paths, relay⟩ =>
      ⟨addresses, transports, nodes, links, paths, relay⟩,
    fun ⟨addresses, transports, nodes, links, paths, relay⟩ =>
      ⟨addresses, transports, nodes, links, paths, relay⟩⟩

/-- A node without transport does not start its routes with a JSON text. -/
def Mesh.NoJsonRoute (mesh : Mesh) : Prop :=
  ∀ n ∈ mesh.nodes, n.transport = "" → ∀ route ∈ n.routes.head?, Json.valid route.toList = false

instance (mesh : Mesh) : Decidable mesh.NoJsonRoute :=
  inferInstanceAs (Decidable (∀ n ∈ mesh.nodes, _))

/-! ## Clean fields -/

theorem clean_of_isDigit (others : List Char) {s : List Char}
    (chars : ∀ c ∈ s, c.isDigit = true ∨ c ∈ others) (noField : fieldEnd ∉ others)
    (noRecord : recordEnd ∉ others) : fieldEnd ∉ s ∧ recordEnd ∉ s := by
  have avoids {symbol : Char} (notDigit : ¬ symbol.isDigit) (outside : symbol ∉ others) :
      symbol ∉ s :=
    fun member => (chars _ member).elim notDigit outside
  exact ⟨avoids (by decide) noField, avoids (by decide) noRecord⟩

theorem clean_itoa (n : Nat) : fieldEnd ∉ itoa n ∧ recordEnd ∉ itoa n :=
  clean_of_isDigit [] (fun _ member => .inl (isDigit_of_mem_itoa member)) (by decide) (by decide)

theorem mem_itoaInt {n : Int} {c : Char} (member : c ∈ itoaInt n) :
    c.isDigit = true ∨ c ∈ ['-'] := by
  rw [itoaInt] at member
  split at member
  · rcases List.mem_cons.mp member with sign | digit
    · exact .inr (List.mem_singleton.mpr sign)
    · exact .inl (isDigit_of_mem_itoa digit)
  · exact .inl (isDigit_of_mem_itoa member)

theorem clean_texts {texts : List String} (plain : ∀ s ∈ texts, Plain s) :
    Clean fieldEnd recordEnd (texts.map String.toList) := by
  intro part member
  obtain ⟨s, listed, rfl⟩ := List.mem_map.mp member
  exact plain s listed

theorem Node.clean_keyFields {n : Node} (plain : ∀ s ∈ n.texts, Plain s) :
    Clean fieldEnd recordEnd n.keyFields := by
  have flag (b : Bool) : fieldEnd ∉ formatBool b ∧ recordEnd ∉ formatBool b := by
    cases b <;> decide
  have instant : fieldEnd ∉ n.addressChangedAt.format ∧ recordEnd ∉ n.addressChangedAt.format :=
    clean_of_isDigit ['-', 'T', ':', '.', 'Z'] (fun _ => mem_format) (by decide) (by decide)
  simp only [Node.texts, List.forall_mem_append, List.forall_mem_cons] at plain
  obtain ⟨⟨id, publicKey, address, endpoint, publicV4, cluster, transport, _⟩, routes⟩ := plain
  simp only [Clean, Node.keyFields, List.forall_mem_append, List.forall_mem_cons]
  refine ⟨⟨⟨id, publicKey, address, clean_itoa _, endpoint, publicV4, flag _, flag _, instant,
    cluster, nofun⟩, ?_⟩, clean_texts routes⟩
  split
  · exact List.forall_mem_singleton.mpr transport
  · exact nofun

theorem Link.clean_keyFields {l : Link} (plain : ∀ s ∈ l.texts, Plain s) :
    Clean fieldEnd recordEnd l.keyFields := by
  have keepalive : fieldEnd ∉ itoaInt l.keepalive ∧ recordEnd ∉ itoaInt l.keepalive :=
    clean_of_isDigit ['-'] (fun _ => mem_itoaInt) (by decide) (by decide)
  simp only [Link.texts, List.forall_mem_append, List.forall_mem_cons] at plain
  obtain ⟨⟨source, target, _⟩, allowed⟩ := plain
  simp only [Clean, Link.keyFields, List.forall_mem_append, List.forall_mem_cons]
  exact ⟨⟨source, target, keepalive, nofun⟩, clean_texts allowed⟩

theorem Relay.clean_keyFields {r : Relay} (plain : Plain r.publicKey ∧ Plain r.host) :
    Clean fieldEnd recordEnd r.keyFields := by
  simp only [Clean, Relay.keyFields, List.forall_mem_cons]
  exact ⟨by decide, plain.1, clean_itoa _, plain.2, nofun⟩

/-! ## Path choices -/

theorem sortedKeys_order {V : Type} (first second : RangeOrder KeySite) (site : KeySite)
    (m : GoMap String V) : sortedKeys first site m = sortedKeys second site m :=
  RangeOrder.insertionSort_range_eq first second site site (· ≤ ·) (List.Perm.refl _)
    fun _ _ _ _ => le_antisymm

/-- The text does not depend on the order in which the maps are iterated. -/
theorem planKeyText_order (mesh : Mesh) (first second : RangeOrder KeySite) :
    planKeyText first mesh = planKeyText second mesh := by
  have rows : mesh.pathFields first = mesh.pathFields second := by
    simp only [Mesh.pathFields, sortedKeys_order first second]
  rw [planKeyText, planKeyText, rows]

theorem mem_pathFields {order : RangeOrder KeySite} {mesh : Mesh} {row : List (List Char)} :
    row ∈ mesh.pathFields order ↔ ∃ id ∈ mesh.paths.keys, ∃ sub ∈ (mesh.paths.getD id ∅).keys,
      row = [id.toList, sub.toList, (mesh.paths.choice id sub).toList] := by
  simp [Mesh.pathFields, sortedKeys, PathChoices.choice, eq_comm]

theorem PathChoices.choice_of_absent {paths : PathChoices} {id sub : String}
    (absent : ¬ (id ∈ paths.keys ∧ sub ∈ (paths.getD id ∅).keys)) : paths.choice id sub = "" := by
  rw [PathChoices.choice]
  by_cases known : id ∈ paths.keys
  · exact GoMap.getD_of_not_mem_keys fun inside => absent ⟨known, inside⟩
  · rw [GoMap.getD_of_not_mem_keys known]
    rfl

theorem choice_of_pathFields {first second : Mesh} {order order' : RangeOrder KeySite}
    (same : first.pathFields order = second.pathFields order') (id sub : String) :
    first.paths.choice id sub = second.paths.choice id sub := by
  have present {mesh other : Mesh} {o o' : RangeOrder KeySite}
      (rows : mesh.pathFields o = other.pathFields o')
      (entry : id ∈ mesh.paths.keys ∧ sub ∈ (mesh.paths.getD id ∅).keys) :
      mesh.paths.choice id sub = other.paths.choice id sub := by
    have row : [id.toList, sub.toList, (mesh.paths.choice id sub).toList] ∈ mesh.pathFields o :=
      mem_pathFields.mpr ⟨id, entry.1, sub, entry.2, rfl⟩
    rw [rows, mem_pathFields] at row
    obtain ⟨id', _, sub', _, equal⟩ := row
    simp only [List.cons.injEq, String.toList_inj, and_true] at equal
    obtain ⟨rfl, rfl, choice⟩ := equal
    exact choice
  by_cases entry : id ∈ first.paths.keys ∧ sub ∈ (first.paths.getD id ∅).keys
  · exact present same entry
  · by_cases entry' : id ∈ second.paths.keys ∧ sub ∈ (second.paths.getD id ∅).keys
    · exact (present same.symm entry').symm
    · rw [PathChoices.choice_of_absent entry, PathChoices.choice_of_absent entry']

/-! ## Nodes and links -/

theorem itoaInt_injective : Function.Injective itoaInt := by
  intro n m same
  have sign {a b : Nat} : itoa a ≠ '-' :: itoa b := by
    intro shape
    have member : '-' ∈ itoa a := by
      rw [shape]
      exact .head _
    exact absurd (isDigit_of_mem_itoa member) (by decide)
  rw [itoaInt, itoaInt] at same
  split at same
  · split at same
    · have equal := itoa_injective (List.cons.inj same).2
      omega
    · exact (sign same.symm).elim
  · split at same
    · exact (sign same).elim
    · have equal := itoa_injective same
      omega

theorem formatBool_injective : Function.Injective formatBool := by
  intro a b same
  cases a <;> cases b
  · rfl
  · cases same
  · cases same
  · rfl

theorem map_toList_injective : Function.Injective (List.map String.toList) :=
  List.map_injective_iff.mpr fun _ _ => String.toList_inj.mp

/-- The transport and the routes are determined by the fields after the fixed ones, if a missing
transport cannot be taken for a route. -/
theorem transport_routes_injective {transport transport' : String} {routes routes' : List String}
    (json : transport ≠ "" → Json.valid transport.toList = true)
    (json' : transport' ≠ "" → Json.valid transport'.toList = true)
    (noJson : transport = "" → ∀ route ∈ routes.head?, Json.valid route.toList = false)
    (noJson' : transport' = "" → ∀ route ∈ routes'.head?, Json.valid route.toList = false)
    (same : (if transport ≠ "" then [transport.toList] else []) ++ routes.map String.toList =
      (if transport' ≠ "" then [transport'.toList] else []) ++ routes'.map String.toList) :
    transport = transport' ∧ routes = routes' := by
  have clash {t : String} {rest : List String} {others : List String}
      (json : Json.valid t.toList = true)
      (noJson : ∀ route ∈ others.head?, Json.valid route.toList = false) :
      [t.toList] ++ rest.map String.toList ≠ [] ++ others.map String.toList := by
    intro equal
    cases others with
    | nil => cases equal
    | cons route others =>
      have text := String.toList_inj.mp (List.cons.inj equal).1
      rw [text, noJson route rfl] at json
      cases json
  split at same
  · next some =>
    split at same
    · obtain ⟨text, rest⟩ := List.cons.inj same
      exact ⟨String.toList_inj.mp text, map_toList_injective rest⟩
    · next none => exact (clash (json some) (noJson' (not_not.mp none)) same).elim
  · next none =>
    split at same
    · next some => exact (clash (json' some) (noJson (not_not.mp none)) same.symm).elim
    · next none' =>
      exact ⟨(not_not.mp none).trans (not_not.mp none').symm,
        map_toList_injective same⟩

theorem Node.keyed_of_keyFields {first second : Mesh} (assumed : first.KeyAssumptions)
    (assumed' : second.KeyAssumptions) (clear : first.NoJsonRoute) (clear' : second.NoJsonRoute)
    {n m : Node} (inFirst : n ∈ first.nodes) (inSecond : m ∈ second.nodes)
    (same : n.keyFields = m.keyFields) : n.keyed = m.keyed := by
  simp only [Node.keyFields, List.cons_append, List.nil_append, List.cons.injEq,
    String.toList_inj] at same
  obtain ⟨id, publicKey, address, listenPort, endpoint, publicV4, disabled, udpMode, changed,
    cluster, rest⟩ := same
  obtain ⟨transport, routes⟩ := transport_routes_injective (assumed.transports n inFirst)
    (assumed'.transports m inSecond) (clear n inFirst) (clear' m inSecond) rest
  have port : n.listenPort = m.listenPort := UInt16.toNat_inj.mp (itoa_injective listenPort)
  have dial : n.dialEndpoint = m.dialEndpoint := by
    rw [Node.dialEndpoint, Node.dialEndpoint, endpoint, publicV4, port]
  rw [Node.keyed, Node.keyed, id, publicKey, address, port, dial,
    formatBool_injective disabled, formatBool_injective udpMode, Time.format_injective changed,
    cluster, transport, routes]

theorem Link.keyFields_injective : Function.Injective Link.keyFields := by
  intro l k same
  simp only [Link.keyFields, List.cons_append, List.nil_append, List.cons.injEq,
    String.toList_inj] at same
  obtain ⟨source, target, keepalive, allowed⟩ := same
  cases l
  cases k
  cases source
  cases target
  cases itoaInt_injective keepalive
  cases map_toList_injective allowed
  rfl

theorem Relay.keyFields_injective : Function.Injective Relay.keyFields := by
  intro r r' same
  simp only [Relay.keyFields, List.cons.injEq, String.toList_inj, and_true, true_and] at same
  obtain ⟨publicKey, port, host⟩ := same
  cases r
  cases r'
  cases publicKey
  cases UInt16.toNat_inj.mp (itoa_injective port)
  cases host
  rfl

/-- Whether a record is that of a node: its third field has a slash. -/
def isNodeRecord (row : List (List Char)) : Bool :=
  '/' ∈ row[2]?.getD []

theorem isNodeRecord_node {n : Node} (address : (hostPrefix n.address).isSome = true) :
    isNodeRecord n.keyFields = true := by
  refine decide_eq_true ?_
  change '/' ∈ n.address.toList
  obtain ⟨prefixes, found⟩ := Option.isSome_iff_exists.mp address
  rw [hostPrefix] at found
  split at found
  · cases found
  · next p parsed =>
    obtain ⟨_, _, _, _, cut, _⟩ := parsePrefix_eq_some parsed
    rw [(splitLast_eq_some.mp cut).1]
    exact List.mem_append_right _ (.head _)

theorem isNodeRecord_link (l : Link) : isNodeRecord l.keyFields = false := by
  refine decide_eq_false ?_
  intro slash
  rcases mem_itoaInt slash with digit | sign
  · exact absurd digit (by decide)
  · exact absurd sign (by decide)

/-! ## The whole text -/

def Mesh.keyRecords (mesh : Mesh) : List (List (List Char)) :=
  mesh.nodes.map Node.keyFields ++ mesh.links.map Link.keyFields

def Mesh.relayFields (mesh : Mesh) : List (List Char) :=
  (mesh.relay.map Relay.keyFields).getD []

theorem planKeyText_eq (order : RangeOrder KeySite) (mesh : Mesh) : planKeyText order mesh =
    records fieldEnd recordEnd mesh.keyRecords ++
      fields fieldEnd ((mesh.pathFields order).flatten ++ mesh.relayFields) := by
  have relay : (mesh.relay.map fun r => fields fieldEnd r.keyFields).getD [] =
      fields fieldEnd mesh.relayFields := by
    rw [Mesh.relayFields]
    cases mesh.relay <;> rfl
  rw [planKeyText, relay, Mesh.keyRecords, records_append, fields_append, fields_flatten]
  simp

theorem Mesh.KeyAssumptions.clean_keyRecords {mesh : Mesh} (assumed : mesh.KeyAssumptions) :
    ∀ row ∈ mesh.keyRecords, Clean fieldEnd recordEnd row := by
  intro row member
  rcases List.mem_append.mp member with node | link
  · obtain ⟨n, listed, rfl⟩ := List.mem_map.mp node
    exact Node.clean_keyFields (assumed.nodes n listed)
  · obtain ⟨l, listed, rfl⟩ := List.mem_map.mp link
    exact Link.clean_keyFields (assumed.links l listed)

theorem Mesh.KeyAssumptions.clean_loose {mesh : Mesh} (assumed : mesh.KeyAssumptions)
    (order : RangeOrder KeySite) :
    Clean fieldEnd recordEnd ((mesh.pathFields order).flatten ++ mesh.relayFields) := by
  intro part member
  rcases List.mem_append.mp member with path | relay
  · obtain ⟨row, listed, inside⟩ := List.mem_flatten.mp path
    obtain ⟨id, known, sub, chosen, rfl⟩ := mem_pathFields.mp listed
    obtain ⟨plainId, plain⟩ := assumed.paths id known
    obtain ⟨plainSub, plainChoice⟩ := plain sub chosen
    simp only [List.mem_cons, List.not_mem_nil, or_false] at inside
    rcases inside with rfl | rfl | rfl
    · exact plainId
    · exact plainSub
    · exact plainChoice
  · rw [Mesh.relayFields] at relay
    cases present : mesh.relay with
    | none =>
      rw [present] at relay
      cases relay
    | some r =>
      rw [present] at relay
      exact Relay.clean_keyFields (assumed.relay r present) part relay

section

variable {first second : Mesh} {order order' : RangeOrder KeySite}

theorem keyRecords_injective (assumed : first.KeyAssumptions) (assumed' : second.KeyAssumptions)
    (same : first.keyRecords = second.keyRecords) :
    first.nodes.map Node.keyFields = second.nodes.map Node.keyFields ∧
      first.links = second.links := by
  have nodeRows {mesh : Mesh} (assumed : mesh.KeyAssumptions) :
      ∀ row ∈ mesh.nodes.map Node.keyFields, isNodeRecord row = true := by
    intro row member
    obtain ⟨n, listed, rfl⟩ := List.mem_map.mp member
    exact isNodeRecord_node (assumed.addresses n listed)
  have linkRows {mesh : Mesh} :
      ∀ row ∈ mesh.links.map Link.keyFields, isNodeRecord row = false := by
    intro row member
    obtain ⟨l, _, rfl⟩ := List.mem_map.mp member
    exact isNodeRecord_link l
  obtain ⟨nodes, links⟩ := append_injective_of_kinds isNodeRecord (nodeRows assumed) linkRows
    (nodeRows assumed') linkRows same
  exact ⟨nodes, List.map_injective_iff.mpr Link.keyFields_injective links⟩

theorem length_pathFields {mesh : Mesh} : ∀ row ∈ mesh.pathFields order, row.length = 3 := by
  intro row member
  obtain ⟨_, _, _, _, rfl⟩ := mem_pathFields.mp member
  rfl

/-- Path choices come in threes and the relay has four fields, so the number of loose fields says
whether there is a relay. -/
theorem loose_injective (same : (first.pathFields order).flatten ++ first.relayFields =
      (second.pathFields order').flatten ++ second.relayFields) :
    first.pathFields order = second.pathFields order' ∧ first.relay = second.relay := by
  have sizes (mesh : Mesh) : mesh.relayFields.length = 0 ∨ mesh.relayFields.length = 4 := by
    rw [Mesh.relayFields]
    cases mesh.relay with
    | none => exact .inl rfl
    | some r => exact .inr rfl
  have size := congrArg List.length same
  rw [List.length_append, List.length_append, length_flatten_of_width length_pathFields,
    length_flatten_of_width length_pathFields] at size
  obtain ⟨flat, equal⟩ := List.append_inj' same (by
    have sizeFirst := sizes first
    have sizeSecond := sizes second
    omega)
  refine ⟨flatten_injective_of_width (by decide) length_pathFields length_pathFields flat, ?_⟩
  rw [Mesh.relayFields, Mesh.relayFields] at equal
  generalize first.relay = relay at equal ⊢
  generalize second.relay = relay' at equal ⊢
  cases relay <;> cases relay'
  · rfl
  · cases equal
  · cases equal
  · exact congrArg some (Relay.keyFields_injective equal)

/-- **The fingerprint determines the plan.** Meshes with equal texts have equal peers for
every node, in whatever order the maps are iterated. -/
theorem peersFor_of_planKeyText (assumed : first.KeyAssumptions) (assumed' : second.KeyAssumptions)
    (clear : first.NoJsonRoute) (clear' : second.NoJsonRoute)
    (same : planKeyText order first = planKeyText order' second) (site site' : RangeOrder Site)
    (id : String) : (planMesh site first).peersFor id = (planMesh site' second).peersFor id := by
  rw [planKeyText_eq, planKeyText_eq] at same
  obtain ⟨recordRows, loose⟩ := records_append_injective (by decide) assumed.clean_keyRecords
    assumed'.clean_keyRecords (assumed.clean_loose order) (assumed'.clean_loose order') same
  obtain ⟨nodes, links⟩ := keyRecords_injective assumed assumed' recordRows
  obtain ⟨paths, relay⟩ := loose_injective loose
  have keyed : first.nodes.map Node.keyed = second.nodes.map Node.keyed :=
    map_eq_of_map_eq (fun _ inFirst _ inSecond =>
      Node.keyed_of_keyFields assumed assumed' clear clear' inFirst inSecond) nodes
  rw [planMesh_order second site' site]
  exact peersFor_congr site keyed links relay (choice_of_pathFields paths) id

end

end Core
