import WireguardMesh.Device.Uapi
import WireguardMesh.Foundation.Reconcile

/-! # Sections of a set operation

What a set operation does to the device, section by section. The device is seen through the
setup of its peers (`Device.setup`) and the peers that prefixes belong to (`Device.Routes`).
A section with settings for a peer is a visit of that peer in the sense of `Reconcile`
(`runLines_section`); one that removes a peer leaves the others alone (`runLines_removal`).
-/

namespace Wireguard

open GoText Net

/-- The prefixes a table can have. -/
abbrev ValidPrefix := {q : Prefix // q.isValid = true}

/-- What a set operation sets of a peer, apart from its prefixes. -/
structure Setup where
  ref : PeerRef
  endpoint : Option (Addr × Nat)
  keepalive : Nat
deriving DecidableEq

def Peer.setup (p : Peer) : Setup :=
  ⟨p.ref, p.endpoint, p.keepalive⟩

variable {K : Type} [DecidableEq K]

variable {dev dev' : Device K} {key : K} {change : Setup → Setup} {own : Setup} {s : SetState K}

namespace Device

def setup (dev : Device K) (key : K) : Option Setup :=
  (dev.peers.lookup key).map Peer.setup

/-- A prefix belongs to the peer with a key. -/
def Routes (dev : Device K) (q : ValidPrefix) (key : K) : Prop :=
  ∃ own, dev.setup key = some own ∧ dev.allowedips.find q = some own.ref

/-- **Sound devices.** Peers are told apart by their objects, the table knows only peers of the
device, and the device is not its own peer. -/
structure Sound (dev : Device K) : Prop where
  distinct : ∀ k k' own own', dev.setup k = some own → dev.setup k' = some own' →
    own.ref = own'.ref → k = k'
  fresh : ∀ k own, dev.setup k = some own → own.ref < dev.fresh
  owned : ∀ (q : ValidPrefix) ref, dev.allowedips.find q = some ref →
    ∃ k own, dev.setup k = some own ∧ own.ref = ref
  notSelf : dev.setup dev.publicKey = none

theorem Sound.exclusive (sound : dev.Sound) : Reconcile.Exclusive dev.Routes := by
  rintro q k k' ⟨own, found, owner⟩ ⟨own', found', owner'⟩
  exact sound.distinct k k' own own' found found' (Option.some.inj (owner.symm.trans owner'))

theorem sound_of_empty (peers : dev.peers = ∅) (table : dev.allowedips = .empty) : dev.Sound := by
  have nobody : ∀ k, dev.setup k = none := by
    intro k
    rw [setup, peers]
    rfl
  refine ⟨?_, ?_, ?_, nobody _⟩
  · intro k _ own _ found
    cases (nobody k).symm.trans found
  · intro k own found
    cases (nobody k).symm.trans found
  · intro q ref owner
    rw [table, AllowedIPs.find_empty] at owner
    cases owner

/-- Devices that differ in nothing that sections look at. -/
structure Alike (dev dev' : Device K) : Prop where
  publicKey : dev'.publicKey = dev.publicKey
  port : dev'.port = dev.port
  keys : dev'.peers.keys = dev.peers.keys
  setup : dev'.setup = dev.setup
  allowedips : dev'.allowedips = dev.allowedips
  fresh : dev'.fresh = dev.fresh

theorem Alike.refl (dev : Device K) : Alike dev dev :=
  ⟨rfl, rfl, rfl, rfl, rfl, rfl⟩

theorem Alike.routes (alike : Alike dev dev') : dev'.Routes = dev.Routes := by
  funext q k
  rw [Routes, Routes, alike.setup, alike.allowedips]

theorem Alike.sound (alike : Alike dev dev') (sound : dev.Sound) : dev'.Sound where
  distinct := by simpa only [alike.setup] using sound.distinct
  fresh := by simpa only [alike.setup, alike.fresh] using sound.fresh
  owned := by simpa only [alike.setup, alike.allowedips] using sound.owned
  notSelf := by simpa only [alike.setup, alike.publicKey] using sound.notSelf

end Device

theorem Device.setup_modify (dev : Device K) (key : K) (change : Setup → Setup) {f : Peer → Peer}
    (same : ∀ p, (f p).setup = change p.setup) (k : K) :
    Device.setup { dev with peers := dev.peers.modify key f } k =
      if k = key then (dev.setup k).map change else dev.setup k := by
  rw [Device.setup, Device.setup, GoMap.lookup_modify]
  split
  · rw [Option.map_map, Option.map_map]
    congr 1
    funext p
    exact same p
  · rfl

theorem Device.alike_modify (dev : Device K) (key : K) {f : Peer → Peer}
    (same : ∀ p, (f p).setup = p.setup) :
    Device.Alike dev { dev with peers := dev.peers.modify key f } := by
  refine ⟨rfl, rfl, GoMap.keys_modify _ _ _, ?_, rfl, rfl⟩
  funext k
  rw [dev.setup_modify key id same, Option.map_id_fun]
  exact ite_self _

theorem SetState.alike_handlePostConfig (s : SetState K) :
    Device.Alike s.dev s.handlePostConfig.dev := by
  rw [handlePostConfig]
  split
  · exact .refl s.dev
  · next real =>
    split
    · next key peer current found =>
      have marked : Device.Alike s.dev s.markRoaming.dev := by
        rw [markRoaming]
        split
        · rw [modifyPeer, if_neg real, current]
          exact s.dev.alike_modify key fun p => rfl
        · exact .refl s.dev
      split
      · exact marked
      · exact marked
    · exact .refl s.dev

/-! ## Lines with settings -/

/-- The change of the current peer by a line. -/
def Line.onSetup : Line K → Setup → Setup
  | .endpoint text, own => { own with endpoint := (parseAddrPort text).or own.endpoint }
  | .keepalive seconds, own => { own with keepalive := seconds.toNat }
  | _, own => own

def Line.added : Line K → Option Prefix
  | .allowedIP ('-' :: _) => none
  | .allowedIP text => parsePrefix text
  | _ => none

def Line.removed : Line K → Option Prefix
  | .allowedIP ('-' :: text) => parsePrefix text
  | _ => none

/-- A line with a setting that is accepted. -/
def Line.Sets : Line K → Prop
  | .endpoint text => (parseAddrPort text).isSome = true
  | .keepalive seconds => 0 ≤ seconds ∧ seconds < 65536
  | .allowedIP text => ((Line.allowedIP text : Line K).added.or
      (Line.allowedIP text : Line K).removed).isSome = true
  | _ => False

/-- The lines of a section act on the peer with a given key. -/
structure SetState.On (s : SetState K) (key : K) (own : Setup) : Prop where
  peerLines : s.deviceConfig = false
  real : s.dummy = false
  current : s.current = some key
  setup : s.dev.setup key = some own

/-- The effect of settings for a peer on the device. -/
structure Device.Set (dev dev' : Device K) (key : K) (change : Setup → Setup)
    (added removed : ValidPrefix → Prop) : Prop where
  publicKey : dev'.publicKey = dev.publicKey
  port : dev'.port = dev.port
  keys : dev'.peers.keys = dev.peers.keys
  fresh : dev'.fresh = dev.fresh
  object : ∀ own, (change own).ref = own.ref
  setup : ∀ k, dev'.setup k = if k = key then (dev.setup k).map change else dev.setup k
  table : ∀ own, dev.setup key = some own → ∀ (q : ValidPrefix) ref,
    dev'.allowedips.find q = some ref ↔ (added q ∧ ref = own.ref) ∨
      (¬ added q ∧ dev.allowedips.find q = some ref ∧ ¬ (removed q ∧ ref = own.ref))

/-- Settings one after the other, when what was added is not removed again. -/
theorem Device.Set.trans {dev₁ dev₂ : Device K} {change' : Setup → Setup}
    {added removed added' removed' : ValidPrefix → Prop}
    (first : dev.Set dev₁ key change added removed)
    (second : dev₁.Set dev₂ key change' added' removed') (kept : ∀ q, added q → ¬ removed' q) :
    dev.Set dev₂ key (change' ∘ change) (fun q => added q ∨ added' q)
      (fun q => removed q ∨ removed' q) where
  publicKey := second.publicKey.trans first.publicKey
  port := second.port.trans first.port
  keys := second.keys.trans first.keys
  fresh := second.fresh.trans first.fresh
  object := fun own => (second.object _).trans (first.object own)
  setup := by
    intro k
    rw [second.setup, first.setup]
    split
    · rw [Option.map_map]
    · rfl
  table := by
    intro own found q ref
    have between : dev₁.setup key = some (change own) := by
      rw [first.setup, if_pos rfl, found]
      rfl
    have keep := kept q
    rw [second.table _ between, first.table own found, first.object]
    grind

def Line.Adds (l : Line K) (q : ValidPrefix) : Prop :=
  ∃ p, l.added = some p ∧ q.1.masked = p.masked

def Line.Removes (l : Line K) (q : ValidPrefix) : Prop :=
  ∃ p, l.removed = some p ∧ q.1.masked = p.masked

theorem SetState.On.modifyPeer (on : s.On key own) {f : Peer → Peer}
    (same : ∀ p, (f p).setup = change p.setup)
    (object : ∀ own, (change own).ref = own.ref) :
    s.dev.Set (s.modifyPeer f).dev key change (fun _ => False) (fun _ => False) ∧
      (s.modifyPeer f).On key (change own) := by
  have state : s.modifyPeer f =
      { s with dev := { s.dev with peers := s.dev.peers.modify key f } } := by
    rw [SetState.modifyPeer, on.real, if_neg Bool.false_ne_true, on.current]
  rw [state]
  have setup := s.dev.setup_modify key change same
  refine ⟨⟨rfl, rfl, GoMap.keys_modify _ _ _, rfl, object, setup, fun _ _ q ref => ?_⟩,
    on.peerLines, on.real, on.current, ?_⟩
  · simp
  · rw [setup, if_pos rfl, on.setup]
    rfl

theorem SetState.On.modifyTable (on : s.On key own) {f : PeerRef → AllowedIPs → AllowedIPs}
    {added removed : ValidPrefix → Prop}
    (table : ∀ (q : ValidPrefix) ref, (f own.ref s.dev.allowedips).find q = some ref ↔
      (added q ∧ ref = own.ref) ∨ (¬ added q ∧ s.dev.allowedips.find q = some ref ∧
        ¬ (removed q ∧ ref = own.ref))) :
    s.dev.Set (s.modifyTable f).dev key id added removed ∧ (s.modifyTable f).On key own := by
  obtain ⟨peer, found, rfl⟩ := Option.map_eq_some_iff.mp on.setup
  have state : s.modifyTable f =
      { s with dev := { s.dev with allowedips := f peer.ref s.dev.allowedips } } := by
    rw [SetState.modifyTable, SetState.peer, on.real, if_neg Bool.false_ne_true,
      if_neg Bool.false_ne_true, on.current, Option.bind_some, found]
  rw [state]
  refine ⟨⟨rfl, rfl, rfl, rfl, fun _ => rfl, fun k => ?_, fun own same => ?_⟩, on.peerLines,
    on.real, on.current, on.setup⟩
  · rw [Option.map_id_fun]
    exact (ite_self _).symm
  · cases on.setup.symm.trans same
    exact table

omit [DecidableEq K] in
theorem Line.adds_of_none {l : Line K} (none : l.added = none) : l.Adds = fun _ => False := by
  funext q
  simp [Line.Adds, none]

omit [DecidableEq K] in
theorem Line.removes_of_none {l : Line K} (none : l.removed = none) :
    l.Removes = fun _ => False := by
  funext q
  simp [Line.Removes, none]

theorem handlePeerLine_removing {text : List Char} (on : s.On key own) {p : Prefix}
    (parsed : parsePrefix text = some p) : ∃ s', handlePeerLine s (.allowedIP ('-' :: text)) =
      (s', none) ∧ s.dev.Set s'.dev key id (fun _ => False)
        (Line.allowedIP ('-' :: text) : Line K).Removes ∧ s'.On key own := by
  rw [handlePeerLine]
  split
  · next failed => cases failed.symm.trans parsed
  · next q found =>
    refine ⟨_, rfl, on.modifyTable fun q' ref => ?_⟩
    rw [AllowedIPs.find_remove _ q'.2]
    simp only [Line.Removes, Line.removed, found]
    grind

theorem handlePeerLine_adding {text : List Char} (on : s.On key own) {p : Prefix}
    (added : (Line.allowedIP text : Line K).added = some p) : ∃ s',
      handlePeerLine s (.allowedIP text) = (s', none) ∧ s.dev.Set s'.dev key id
        (Line.allowedIP text : Line K).Adds (fun _ => False) ∧ s'.On key own := by
  by_cases minus : ∃ rest, text = '-' :: rest
  · obtain ⟨rest, rfl⟩ := minus
    cases added
  · have plain : (Line.allowedIP text : Line K).added = parsePrefix text := by
      rw [Line.added.eq_def]
      split
      · next heq => cases heq; exact absurd ⟨_, rfl⟩ minus
      · next heq => cases heq; rfl
      · next other => exact absurd rfl (other text)
    rw [handlePeerLine]
    · split
      · next failed => cases failed.symm.trans (plain.symm.trans added)
      · next q found =>
        refine ⟨_, rfl, on.modifyTable fun q' ref => ?_⟩
        rw [AllowedIPs.find_insert _ q'.2]
        simp only [Line.Adds, plain, found]
        grind
    · exact fun rest same => minus ⟨rest, same⟩

variable (ops : KeyOps K) (listen : UInt16 → Option UInt16)

/-- **One setting.** -/
theorem handleLine_sets {l : Line K} (on : s.On key own) (sets : l.Sets) :
    ∃ s', handleLine ops listen s l = (s', none) ∧
      s.dev.Set s'.dev key l.onSetup l.Adds l.Removes ∧ s'.On key (l.onSetup own) := by
  have toPeer : handleLine ops listen s l = handlePeerLine s l := by
    cases l <;> first | exact absurd sets id | simp only [handleLine, on.peerLines]; rfl
  rw [toPeer]
  cases l with
  | endpoint text =>
    obtain ⟨e, parsed⟩ := Option.isSome_iff_exists.mp sets
    have changed : s.dev.Set (s.modifyPeer fun p => { p with endpoint := some e }).dev key
        (Line.onSetup (.endpoint text : Line K)) (fun _ => False) (fun _ => False) ∧ _ :=
      on.modifyPeer (fun p => by
        rw [Line.onSetup, parsed]
        rfl) (fun _ => rfl)
    rw [handlePeerLine, parsed, Line.adds_of_none rfl, Line.removes_of_none rfl]
    exact ⟨_, rfl, changed.1, { changed.2 with }⟩
  | keepalive seconds =>
    have changed : s.dev.Set (s.modifyPeer fun p => { p with keepalive := seconds.toNat }).dev key
        (Line.onSetup (.keepalive seconds : Line K)) (fun _ => False) (fun _ => False) ∧ _ :=
      on.modifyPeer (fun _ => rfl) (fun _ => rfl)
    have inRange : 0 ≤ seconds ∧ seconds < 65536 := sets
    rw [handlePeerLine, if_pos inRange, Line.adds_of_none rfl, Line.removes_of_none rfl]
    exact ⟨_, rfl, changed.1, { changed.2 with }⟩
  | allowedIP text =>
    cases added : (Line.allowedIP text : Line K).added with
    | some p =>
      have nothing : (Line.allowedIP text : Line K).removed = none := by
        rw [Line.removed.eq_def]
        split
        · next heq => cases heq; cases added
        · rfl
      rw [Line.removes_of_none nothing]
      exact handlePeerLine_adding on added
    | none =>
      have sets : ((Line.allowedIP text : Line K).added.or
        (Line.allowedIP text : Line K).removed).isSome = true := sets
      rw [added, Option.none_or, Line.removed.eq_def] at sets
      rw [Line.adds_of_none added]
      split at sets
      · next rest heq =>
        cases heq
        obtain ⟨p, parsed⟩ := Option.isSome_iff_exists.mp sets
        exact handlePeerLine_removing on parsed
      · cases sets
  | _ => exact absurd sets id

/-- The settings of several lines. -/
def changes (lines : List (Line K)) (own : Setup) : Setup :=
  lines.foldl (fun own l => l.onSetup own) own

omit [DecidableEq K] in
theorem changes_nil : changes ([] : List (Line K)) = id := by
  rfl

omit [DecidableEq K] in
theorem changes_cons (l : Line K) (lines : List (Line K)) :
    changes (l :: lines) = changes lines ∘ l.onSetup := by
  rfl

theorem Device.Set.refl (dev : Device K) (key : K) :
    dev.Set dev key id (fun _ => False) (fun _ => False) where
  publicKey := rfl
  port := rfl
  keys := rfl
  fresh := rfl
  object := fun _ => rfl
  setup := fun k => by rw [Option.map_id_fun]; exact (ite_self _).symm
  table := fun _ _ _ _ => by simp

/-- **Settings one after the other.** -/
theorem runLines_sets :
    ∀ (lines : List (Line K)) {s : SetState K} {own : Setup}, s.On key own →
      (∀ l ∈ lines, l.Sets) → (∀ l ∈ lines, ∀ l' ∈ lines, ∀ q, l.Adds q → ¬ l'.Removes q) →
    ∃ s', runLines ops listen lines s = (s', none) ∧
      s.dev.Set s'.dev key (changes lines) (fun q => ∃ l ∈ lines, l.Adds q)
        (fun q => ∃ l ∈ lines, l.Removes q) ∧ s'.On key (changes lines own)
  | [], s, own, on, _, _ => by
      refine ⟨s, rfl, ?_, on⟩
      simpa [changes_nil] using Device.Set.refl s.dev key
  | l :: lines, s, own, on, sets, kept => by
      obtain ⟨s₁, ran, first, on₁⟩ := handleLine_sets ops listen on (sets l (.head _))
      obtain ⟨s₂, rest, second, on₂⟩ := runLines_sets lines on₁
        (fun l' member => sets l' (List.mem_cons_of_mem l member))
        (fun a inA b inB => kept a (List.mem_cons_of_mem l inA) b (List.mem_cons_of_mem l inB))
      refine ⟨s₂, by rw [runLines, ran]; exact rest, ?_, on₂⟩
      have whole := first.trans second fun q added => by
        rintro ⟨l', member, removed⟩
        exact kept l List.mem_cons_self l' (List.mem_cons_of_mem l member) q added removed
      simpa only [List.mem_cons, exists_eq_or_imp, changes_cons] using whole

/-! ## A section -/

theorem Device.Set.sound {added removed : ValidPrefix → Prop}
    (set : dev.Set dev' key change added removed) (sound : dev.Sound)
    (found : dev.setup key = some own) : dev'.Sound := by
  have refs : ∀ k after, dev'.setup k = some after →
      ∃ before, dev.setup k = some before ∧ after.ref = before.ref := by
    intro k after same
    rw [set.setup] at same
    split at same
    · obtain ⟨before, known, rfl⟩ := Option.map_eq_some_iff.mp same
      exact ⟨before, known, set.object before⟩
    · exact ⟨after, same, rfl⟩
  have kept : ∀ k before, dev.setup k = some before →
      ∃ after, dev'.setup k = some after ∧ after.ref = before.ref := by
    intro k before known
    rw [set.setup]
    split
    · exact ⟨change before, by rw [known]; rfl, set.object before⟩
    · exact ⟨before, known, rfl⟩
  constructor
  · intro k k' after after' same same' object
    obtain ⟨before, known, ref⟩ := refs k after same
    obtain ⟨before', known', ref'⟩ := refs k' after' same'
    exact sound.distinct k k' before before' known known' (by rw [← ref, ← ref', object])
  · intro k after same
    obtain ⟨before, known, ref⟩ := refs k after same
    rw [ref, set.fresh]
    exact sound.fresh k before known
  · intro q ref owner
    rcases (set.table own found q ref).mp owner with ⟨_, rfl⟩ | ⟨_, owner, _⟩
    · obtain ⟨after, known, ref⟩ := kept key own found
      exact ⟨key, after, known, ref⟩
    · obtain ⟨k, before, known, rfl⟩ := sound.owned q ref owner
      obtain ⟨after, known', ref⟩ := kept k before known
      exact ⟨k, after, known', ref⟩
  · rw [set.publicKey, set.setup, sound.notSelf]
    split <;> rfl

theorem Device.Set.visit
    {added removed : ValidPrefix → Prop} (set : dev.Set dev' key change added removed)
    (sound : dev.Sound) (found : dev.setup key = some own) :
    Reconcile.Visit key added removed dev.Routes dev'.Routes := by
  constructor
  · intro q
    have after : dev'.setup key = some (change own) := by
      rw [set.setup, if_pos rfl, found]
      rfl
    simp only [Device.Routes, after, found, Option.some.injEq, exists_eq_left', set.object,
      set.table own found]
    grind
  · intro q k other
    simp only [Device.Routes, set.setup, if_neg other]
    constructor
    · rintro ⟨theirs, known, owner⟩
      rcases (set.table own found q _).mp owner with ⟨_, same⟩ | ⟨notAdded, owner, _⟩
      · exact absurd (sound.distinct k key theirs own known found same) other
      · exact ⟨⟨theirs, known, owner⟩, notAdded⟩
    · rintro ⟨⟨theirs, known, owner⟩, notAdded⟩
      refine ⟨theirs, known, (set.table own found q _).mpr (.inr ⟨notAdded, owner, ?_⟩)⟩
      rintro ⟨_, same⟩
      exact other (sound.distinct k key theirs own known found same)

/-- The setup of the peer with a key, or of a new one. -/
def Device.setupOrNew (dev : Device K) (key : K) : Setup :=
  (dev.setup key).getD ⟨dev.fresh, none, 0⟩

theorem Device.setup_newPeer (dev : Device K) (key k : K) : (dev.newPeer key).setup k =
    if k = key then some ⟨dev.fresh, none, 0⟩ else dev.setup k := by
  rw [setup, newPeer]
  split
  · next same =>
    rw [same, AList.lookup_insert]
    rfl
  · next different =>
    rw [AList.lookup_insert_ne different]
    rfl

theorem Device.Sound.newPeer (sound : dev.Sound) (absent : dev.setup key = none)
    (notSelf : dev.publicKey ≠ key) : (dev.newPeer key).Sound := by
  have old : ∀ k own, (dev.newPeer key).setup k = some own → k ≠ key → dev.setup k = some own := by
    intro k own found other
    rwa [Device.setup_newPeer, if_neg other] at found
  have new : ∀ own, (dev.newPeer key).setup key = some own → own.ref = dev.fresh := by
    intro own found
    rw [Device.setup_newPeer, if_pos rfl] at found
    cases found
    rfl
  constructor
  · intro k k' own own' found found' same
    by_cases isNew : k = key
    · by_cases isNew' : k' = key
      · rw [isNew, isNew']
      · have bound := sound.fresh k' own' (old k' own' found' isNew')
        rw [← same, new own (isNew ▸ found)] at bound
        exact absurd bound (Nat.lt_irrefl _)
    · have bound := sound.fresh k own (old k own found isNew)
      by_cases isNew' : k' = key
      · rw [same, new own' (isNew' ▸ found')] at bound
        exact absurd bound (Nat.lt_irrefl _)
      · exact sound.distinct k k' own own' (old k own found isNew) (old k' own' found' isNew') same
  · intro k own found
    by_cases isNew : k = key
    · rw [new own (isNew ▸ found)]
      exact Nat.lt_succ_self _
    · exact Nat.lt_succ_of_lt (sound.fresh k own (old k own found isNew))
  · intro q ref owner
    obtain ⟨k, own, found, rfl⟩ := sound.owned q ref owner
    have other : k ≠ key := by
      rintro rfl
      rw [absent] at found
      cases found
    exact ⟨k, own, by rw [Device.setup_newPeer, if_neg other, found], rfl⟩
  · change (dev.newPeer key).setup dev.publicKey = none
    rw [Device.setup_newPeer, if_neg notSelf]
    exact sound.notSelf

theorem Device.Sound.routes_newPeer (sound : dev.Sound) (absent : dev.setup key = none) :
    (dev.newPeer key).Routes = dev.Routes := by
  funext q k
  rw [eq_iff_iff, Device.Routes, Device.Routes, Device.setup_newPeer]
  split
  · next same =>
    subst same
    rw [absent]
    constructor
    · rintro ⟨_, new, owner⟩
      cases new
      obtain ⟨k', own, found, ref⟩ := sound.owned q dev.fresh owner
      exact absurd (sound.fresh k' own found) (ref ▸ Nat.lt_irrefl _)
    · rintro ⟨_, impossible, _⟩
      cases impossible
  · rfl

/-- The effect of a section with settings. -/
structure Device.Visited (dev dev' : Device K) (key : K) (lines : List (Line K)) : Prop where
  publicKey : dev'.publicKey = dev.publicKey
  port : dev'.port = dev.port
  sound : dev'.Sound
  others : ∀ k, k ≠ key → dev'.setup k = dev.setup k
  own : dev'.setup key = some (changes lines (dev.setupOrNew key))
  size : dev'.peers.keys.length ≤ dev.peers.keys.length + if (dev.setup key).isSome then 0 else 1
  routes : Reconcile.Visit key (fun q => ∃ l ∈ lines, l.Adds q) (fun q => ∃ l ∈ lines, l.Removes q)
    dev.Routes dev'.Routes

theorem Device.Visited.refl (sound : dev.Sound) (present : (dev.setup key).isSome = true) :
    dev.Visited dev key [] where
  publicKey := rfl
  port := rfl
  sound := sound
  others := fun _ _ => rfl
  own := by
    obtain ⟨own, found⟩ := Option.isSome_iff_exists.mp present
    rw [Device.setupOrNew, found]
    rfl
  size := Nat.le_add_right _ _
  routes := ⟨fun _ => by simp, fun _ _ _ => by simp⟩

section

variable (sound : s.dev.Sound) (notSelf : s.dev.publicKey ≠ key)
  (room : (s.dev.setup key).isSome = true ∨ s.dev.peers.keys.length < maxPeers)

include sound notSelf room

theorem handleLine_publicKey : ∃ s', handleLine ops listen s (.publicKey key) = (s', none) ∧
      s'.On key (s.dev.setupOrNew key) ∧ s'.dev.publicKey = s.dev.publicKey ∧
      s'.dev.port = s.dev.port ∧ s'.dev.Sound ∧ (∀ k, k ≠ key → s'.dev.setup k = s.dev.setup k) ∧
      s'.dev.peers.keys.length ≤
        s.dev.peers.keys.length + (if (s.dev.setup key).isSome then 0 else 1) ∧
      s'.dev.Routes = s.dev.Routes := by
  have alike := s.alike_handlePostConfig
  have sound' := alike.sound sound
  have lookup : (s.handlePostConfig.dev.peers.lookup key).isSome = (s.dev.setup key).isSome := by
    rw [← alike.setup, Device.setup, Option.isSome_map]
  rw [handleLine, handlePublicKeyLine, alike.publicKey, if_neg notSelf, lookup, alike.keys]
  split
  · next present =>
    obtain ⟨own, found⟩ := Option.isSome_iff_exists.mp present
    refine ⟨_, rfl, ⟨rfl, rfl, rfl, ?_⟩, alike.publicKey, alike.port, sound', ?_, ?_,
      alike.routes⟩
    · rw [alike.setup, Device.setupOrNew, found]
      rfl
    · intro k _
      exact congrFun alike.setup k
    · exact Nat.le_of_eq (congrArg List.length alike.keys)
  · next absent =>
    have absent : s.dev.setup key = none := by simpa using absent
    have absent' : s.handlePostConfig.dev.setup key = none := by rw [alike.setup, absent]
    have space : ¬ maxPeers ≤ s.dev.peers.keys.length := by
      rw [absent] at room
      simpa using room
    rw [if_neg space]
    refine ⟨_, rfl, ⟨rfl, rfl, rfl, ?_⟩, alike.publicKey, alike.port,
      sound'.newPeer absent' (alike.publicKey ▸ notSelf), ?_, ?_, ?_⟩
    · rw [Device.setup_newPeer, if_pos rfl, Device.setupOrNew, absent, alike.fresh]
      rfl
    · intro k other
      rw [Device.setup_newPeer, if_neg other, alike.setup]
    · change (AList.insert key _ s.handlePostConfig.dev.peers).keys.length ≤ _
      rw [AList.keys_insert, List.length_cons, alike.keys]
      exact Nat.succ_le_succ List.length_erase_le
    · exact (sound'.routes_newPeer absent').trans alike.routes

/-- **A section with settings.** It visits the peer, which is created if need be. -/
theorem runLines_section {lines : List (Line K)} (sets : ∀ l ∈ lines, l.Sets)
    (kept : ∀ l ∈ lines, ∀ l' ∈ lines, ∀ q, l.Adds q → ¬ l'.Removes q) :
    ∃ s', runLines ops listen (.publicKey key :: lines) s = (s', none) ∧
      s.dev.Visited s'.dev key lines := by
  obtain ⟨s₁, opened, on, publicKey, port, sound₁, others, size, routes⟩ :=
    handleLine_publicKey ops listen sound notSelf room
  obtain ⟨s₂, ran, set, on₂⟩ := runLines_sets ops listen lines on sets kept
  refine ⟨s₂, by rw [runLines, opened]; exact ran, ?_⟩
  exact {
    publicKey := set.publicKey.trans publicKey
    port := set.port.trans port
    sound := set.sound sound₁ on.setup
    others := fun k other => by rw [set.setup, if_neg other, others k other]
    own := on₂.setup
    size := by rwa [set.keys]
    routes := routes ▸ set.visit sound₁ on.setup }

end

/-! ## Removal -/

/-- The effect of the removal of a peer. -/
structure Device.Dropped (dev dev' : Device K) (key : K) : Prop where
  publicKey : dev'.publicKey = dev.publicKey
  port : dev'.port = dev.port
  sound : dev'.Sound
  setup : ∀ k, dev'.setup k = if k = key then none else dev.setup k
  routes : ∀ q k, dev'.Routes q k ↔ dev.Routes q k ∧ k ≠ key

theorem Device.Dropped.of_alike (alike : dev.Alike dev') (sound : dev.Sound)
    (absent : dev.setup key = none) : dev.Dropped dev' key where
  publicKey := alike.publicKey
  port := alike.port
  sound := alike.sound sound
  setup := by
    intro k
    rw [alike.setup]
    split
    · next same => rw [same, absent]
    · rfl
  routes := by
    intro q k
    rw [alike.routes]
    refine ⟨fun routed => ⟨routed, ?_⟩, And.left⟩
    rintro rfl
    obtain ⟨own, found, _⟩ := routed
    cases absent.symm.trans found

theorem Device.Alike.dropped {dev₁ : Device K} (alike : dev.Alike dev₁)
    (dropped : dev₁.Dropped dev' key) : dev.Dropped dev' key where
  publicKey := dropped.publicKey.trans alike.publicKey
  port := dropped.port.trans alike.port
  sound := dropped.sound
  setup := by simpa only [alike.setup] using dropped.setup
  routes := by simpa only [alike.routes] using dropped.routes

theorem Device.setup_removePeer (dev : Device K) (key k : K) :
    (dev.removePeer key).setup k = if k = key then none else dev.setup k := by
  rw [removePeer]
  split
  · next absent =>
    split
    · next same => rw [same, setup, absent]; rfl
    · rfl
  · next peer found =>
    rw [setup]
    split
    · next same => rw [same, AList.lookup_erase]; rfl
    · next other => rw [AList.lookup_erase_ne other]; rfl

theorem Device.find_removePeer (found : dev.setup key = some own) (q : ValidPrefix) :
    (dev.removePeer key).allowedips.find q =
      if dev.allowedips.find q = some own.ref then none else dev.allowedips.find q := by
  obtain ⟨peer, known, rfl⟩ := Option.map_eq_some_iff.mp found
  rw [removePeer, known]
  exact AllowedIPs.find_removeByPeer q.2 peer.ref

/-- **Removing a peer.** It takes its prefixes along. -/
theorem Device.Sound.dropped_removePeer (sound : dev.Sound) (key : K) :
    dev.Dropped (dev.removePeer key) key := by
  cases found : dev.setup key with
  | none =>
    have absent : dev.peers.lookup key = none := Option.map_eq_none_iff.mp found
    have same : dev.removePeer key = dev := by rw [Device.removePeer, absent]
    rw [same]
    exact .of_alike (.refl dev) sound found
  | some own =>
    obtain ⟨publicKey, port, fresh⟩ : (dev.removePeer key).publicKey = dev.publicKey ∧
        (dev.removePeer key).port = dev.port ∧ (dev.removePeer key).fresh = dev.fresh := by
      rw [Device.removePeer]
      split <;> exact ⟨rfl, rfl, rfl⟩
    have kept : ∀ k own, (dev.removePeer key).setup k = some own ↔
        dev.setup k = some own ∧ k ≠ key := by
      intro k own
      rw [Device.setup_removePeer]
      split <;> simp_all
    have table : ∀ (q : ValidPrefix) ref, (dev.removePeer key).allowedips.find q = some ref ↔
        dev.allowedips.find q = some ref ∧ ref ≠ own.ref := by
      intro q ref
      rw [Device.find_removePeer found]
      split <;> grind
    refine ⟨publicKey, port, ?_, dev.setup_removePeer key, ?_⟩
    · constructor
      · intro k k' before before' known known' same
        exact sound.distinct k k' before before' ((kept k before).mp known).1
          ((kept k' before').mp known').1 same
      · intro k before known
        rw [fresh]
        exact sound.fresh k before ((kept k before).mp known).1
      · intro q ref owner
        obtain ⟨owner, other⟩ := (table q ref).mp owner
        obtain ⟨k, before, known, rfl⟩ := sound.owned q ref owner
        refine ⟨k, before, (kept k before).mpr ⟨known, ?_⟩, rfl⟩
        rintro rfl
        cases found.symm.trans known
        exact other rfl
      · rw [publicKey, Device.setup_removePeer, sound.notSelf]
        exact ite_self _
    · intro q k
      simp only [Device.Routes, kept, table]
      constructor
      · rintro ⟨before, ⟨known, other⟩, owner, _⟩
        exact ⟨⟨before, known, owner⟩, other⟩
      · rintro ⟨⟨before, known, owner⟩, other⟩
        refine ⟨before, ⟨known, other⟩, owner, fun same => ?_⟩
        exact other (sound.distinct k key before own known found same)

/-- **A section that removes a peer**, or names the device itself. -/
theorem runLines_removal (sound : s.dev.Sound)
    (named : (s.dev.setup key).isSome = true ∨ s.dev.publicKey = key) :
    ∃ s', runLines ops listen [.publicKey key, .remove] s = (s', none) ∧
      s.dev.Dropped s'.dev key := by
  have alike := s.alike_handlePostConfig
  have sound' := alike.sound sound
  by_cases self : s.dev.publicKey = key
  · have opened : handleLine ops listen s (.publicKey key) =
        ({ s.handlePostConfig with
            deviceConfig := false, current := some key, dummy := true, placeholder := .blank 0,
            created := false }, none) := by
      rw [handleLine, handlePublicKeyLine, alike.publicKey, if_pos self]
    refine ⟨_, by rw [runLines, opened]; rfl, ?_⟩
    exact .of_alike alike sound (self ▸ sound.notSelf)
  · have present : (s.handlePostConfig.dev.peers.lookup key).isSome = true := by
      have known := named.resolve_right self
      rwa [← alike.setup, Device.setup, Option.isSome_map] at known
    have opened : handleLine ops listen s (.publicKey key) =
        ({ s.handlePostConfig with
            deviceConfig := false, current := some key, dummy := false, created := false }, none) := by
      rw [handleLine, handlePublicKeyLine, alike.publicKey, if_neg self, if_pos present]
    have dropped := sound'.dropped_removePeer key
    exact ⟨_, by rw [runLines, opened]; rfl, alike.dropped dropped⟩

/-! ## The private key -/

/-- The effect of a private key: a peer with its public key is dropped. -/
structure Device.Rekeyed (dev dev' : Device K) : Prop where
  port : dev'.port = dev.port
  sound : dev'.Sound
  size : dev'.peers.keys.length ≤ dev.peers.keys.length
  setup : ∀ k, dev'.setup k = if k = dev'.publicKey then none else dev.setup k
  routes : ∀ q k, dev'.Routes q k ↔ dev.Routes q k ∧ k ≠ dev'.publicKey

theorem Device.Sound.rekeyed (sound : dev.Sound) (ops : KeyOps K) (sk : K) :
    dev.Rekeyed (dev.setPrivateKey ops sk) := by
  rw [Device.setPrivateKey]
  split
  · have same := Device.Dropped.of_alike (.refl dev) sound sound.notSelf
    exact ⟨rfl, sound, le_rfl, same.setup, same.routes⟩
  · have dropped := sound.dropped_removePeer (ops.publicKey sk)
    refine ⟨dropped.port, ⟨dropped.sound.distinct, dropped.sound.fresh, dropped.sound.owned, ?_⟩, ?_,
      dropped.setup, dropped.routes⟩
    · exact (dropped.setup _).trans (if_pos rfl)
    · change (dev.removePeer _).peers.keys.length ≤ _
      rw [Device.removePeer]
      split
      · exact le_rfl
      · rw [AList.keys_erase]
        exact List.length_erase_le

end Wireguard
