import WireguardMesh.Device.Sections
import Mathlib.Logic.Function.Basic

/-! # Configured endpoints

The endpoint of a peer comes from a set operation or from a packet. Which of the two it was is
no part of the device; it is kept beside it, as the set of the peers whose last endpoint was
configured. A set operation never takes an endpoint away (`kept_ipcSetOperation`).
-/

namespace Wireguard

open Net

variable {K : Type} [DecidableEq K]

/-- The peers with a configured endpoint have one. -/
def Kept (dev : Device K) (configured : K → Bool) : Prop :=
  ∀ k, ∀ peer ∈ dev.peers.lookup k, configured k = true → peer.endpoint ≠ none

/-- Peers may have gone; those that are left have the endpoint they had. -/
def Thins (dev dev' : Device K) : Prop :=
  ∀ k, ∀ now ∈ dev'.peers.lookup k, ∃ peer ∈ dev.peers.lookup k, now.endpoint = peer.endpoint

/-- The configured endpoints, after a line of a set operation. A peer that is created has none. -/
def noteLine (s : SetState K) (configured : K → Bool) : Line K → K → Bool
  | .publicKey key =>
    if (s.dev.peers.lookup key).isSome then configured else Function.update configured key false
  | .endpoint text =>
    if s.deviceConfig = false ∧ s.dummy = false ∧ (parseAddrPort text).isSome then
      s.current.elim configured fun key => Function.update configured key true
    else configured
  | .privateKey _ | .listenPort _ | .replacePeers | .updateOnly | .remove | .keepalive _
  | .replaceAllowedIPs | .allowedIP _ => configured

variable {dev dev' dev'' : Device K} {configured : K → Bool}

theorem Thins.refl (dev : Device K) : Thins dev dev :=
  fun _ now found => ⟨now, found, rfl⟩

theorem Thins.trans (first : Thins dev dev') (second : Thins dev' dev'') : Thins dev dev'' := by
  intro k now found
  obtain ⟨middle, found, same⟩ := second k now found
  obtain ⟨peer, found, same'⟩ := first k middle found
  exact ⟨peer, found, same.trans same'⟩

theorem Kept.thins (kept : Kept dev configured) (thins : Thins dev dev') :
    Kept dev' configured := by
  intro k now found isConfigured
  obtain ⟨peer, before, same⟩ := thins k now found
  rw [same]
  exact kept k peer before isConfigured

/-! ## Steps that set no endpoint -/

theorem thins_removePeer (dev : Device K) (key : K) : Thins dev (dev.removePeer key) := by
  rw [Device.removePeer]
  split
  · exact .refl dev
  · intro k now found
    by_cases same : k = key
    · rw [same, AList.lookup_erase] at found
      cases found
    · rw [AList.lookup_erase_ne same] at found
      exact ⟨now, found, rfl⟩

theorem thins_removeAllPeers (dev : Device K) : Thins dev dev.removeAllPeers := by
  rw [Device.removeAllPeers]
  generalize dev.peers.keys = keys
  induction keys generalizing dev with
  | nil => exact .refl dev
  | cons key keys ih => exact (thins_removePeer dev key).trans (ih _)

theorem thins_setPrivateKey (ops : KeyOps K) (dev : Device K) (sk : K) :
    Thins dev (dev.setPrivateKey ops sk) := by
  rw [Device.setPrivateKey]
  split
  · exact .refl dev
  · exact thins_removePeer dev _

theorem thins_bindSetListenPort (listen : UInt16 → Option UInt16) (dev : Device K)
    (port : UInt16) : Thins dev (bindSetListenPort listen dev port).1 := by
  rw [bindSetListenPort]
  split
  · exact .refl dev
  · split
    · exact .refl dev
    · dsimp only
      split <;> exact .refl dev

theorem Device.Alike.thins (alike : Device.Alike dev dev') : Thins dev dev' := by
  intro k now found
  have same : dev'.setup k = dev.setup k := by rw [alike.setup]
  rw [Device.setup, Device.setup, Option.mem_def.mp found, Option.map_some] at same
  obtain ⟨peer, before, setup⟩ := Option.map_eq_some_iff.mp same.symm
  exact ⟨peer, before, congrArg Setup.endpoint setup.symm⟩

namespace SetState

variable {s : SetState K}

theorem thins_modifyPeer {f : Peer → Peer} (same : ∀ p, (f p).endpoint = p.endpoint) :
    Thins s.dev (s.modifyPeer f).dev := by
  rw [modifyPeer]
  split
  · exact .refl _
  · split
    · exact .refl _
    · next key _ =>
      intro k now found
      rw [GoMap.lookup_modify] at found
      split at found
      · obtain ⟨peer, before, rfl⟩ := Option.map_eq_some_iff.mp found
        exact ⟨peer, before, same peer⟩
      · exact ⟨now, found, rfl⟩

theorem thins_modifyTable (f : PeerRef → AllowedIPs → AllowedIPs) :
    Thins s.dev (s.modifyTable f).dev := by
  rw [modifyTable]
  split
  · exact .refl _
  · split <;> exact .refl _

theorem thins_dropPeer : Thins s.dev s.dropPeer.dev := by
  rw [dropPeer]
  split
  · exact .refl _
  · cases s.current with
    | none => exact .refl _
    | some key => exact thins_removePeer s.dev key

end SetState

/-! ## Lines -/

theorem Kept.forget (kept : Kept dev configured) (key : K) :
    Kept dev (Function.update configured key false) := by
  intro k peer found isConfigured
  by_cases same : k = key
  · rw [same, Function.update_self] at isConfigured
    cases isConfigured
  · rw [Function.update_of_ne same] at isConfigured
    exact kept k peer found isConfigured

variable (ops : KeyOps K) (listen : UInt16 → Option UInt16)

theorem thins_handleDeviceLine (s : SetState K) (line : Line K) :
    Thins s.dev (handleDeviceLine ops listen s line).1.dev := by
  cases line with
  | privateKey key => exact thins_setPrivateKey ops s.dev _
  | listenPort port => exact thins_bindSetListenPort listen s.dev port
  | replacePeers => exact thins_removeAllPeers s.dev
  | _ => exact .refl s.dev

theorem kept_publicKey {s : SetState K} (kept : Kept s.dev configured) (key : K) :
    Kept (handleLine ops listen s (.publicKey key)).1.dev
      (noteLine s configured (.publicKey key)) := by
  have alike := s.alike_handlePostConfig
  have known : (s.handlePostConfig.dev.peers.lookup key).isSome =
      (s.dev.peers.lookup key).isSome := by
    have same : s.handlePostConfig.dev.setup key = s.dev.setup key := by rw [alike.setup]
    rw [Device.setup, Device.setup] at same
    simpa only [Option.isSome_map] using congrArg Option.isSome same
  have noted : Kept s.handlePostConfig.dev (noteLine s configured (.publicKey key)) := by
    rw [noteLine]
    split
    · exact kept.thins alike.thins
    · exact (kept.thins alike.thins).forget key
  rw [handleLine, handlePublicKeyLine]
  split
  · exact noted
  · split
    · exact noted
    · next new =>
      split
      · exact noted
      · intro k peer found isConfigured
        change peer ∈ AList.lookup k (AList.insert key _ s.handlePostConfig.dev.peers) at found
        rw [GoMap.lookup_insert] at found
        split at found
        · next same =>
          rw [known] at new
          rw [noteLine, if_neg new, same, Function.update_self] at isConfigured
          cases isConfigured
        · exact noted k peer found isConfigured

theorem handleLine_eq (s : SetState K) {line : Line K}
    (other : ∀ key, line ≠ .publicKey key) : handleLine ops listen s line =
      if s.deviceConfig then handleDeviceLine ops listen s line else handlePeerLine s line := by
  cases line with
  | publicKey key => exact (other key rfl).elim
  | _ => rfl

theorem kept_endpoint {s : SetState K} (kept : Kept s.dev configured) (text : List Char) :
    Kept (handleLine ops listen s (.endpoint text)).1.dev
      (noteLine s configured (.endpoint text)) := by
  rw [show handleLine ops listen s (.endpoint text) = _ from handleLine_eq ops listen s nofun]
  by_cases atDevice : s.deviceConfig = true
  · rw [if_pos atDevice, noteLine, if_neg fun ready => ?_]
    · exact kept
    · rw [atDevice] at ready
      cases ready.1
  · rw [if_neg atDevice, handlePeerLine]
    cases parsed : parseAddrPort text with
    | none =>
      rw [noteLine, if_neg fun ready => ?_]
      · exact kept
      · rw [parsed] at ready
        cases ready.2.2
    | some endpoint =>
      dsimp only
      rw [SetState.modifyPeer, noteLine, parsed]
      by_cases dummy : s.dummy = true
      · rw [if_pos dummy, if_neg fun ready => ?_]
        · exact kept
        · rw [dummy] at ready
          cases ready.2.1
      · rw [if_neg dummy, if_pos ⟨Bool.eq_false_iff.mpr atDevice, Bool.eq_false_iff.mpr dummy, rfl⟩]
        cases s.current with
        | none => exact kept
        | some key =>
          intro k peer found isConfigured
          rw [GoMap.lookup_modify] at found
          split at found
          · obtain ⟨before, -, rfl⟩ := Option.map_eq_some_iff.mp found
            exact Option.some_ne_none _
          · next differs =>
            refine kept k peer found ?_
            change Function.update configured key true k = true at isConfigured
            rwa [Function.update_of_ne differs] at isConfigured

theorem thins_handlePeerLine (s : SetState K) {line : Line K} (other : ∀ text, line ≠ .endpoint text) :
    Thins s.dev (handlePeerLine s line).1.dev := by
  cases line with
  | endpoint text => exact (other text rfl).elim
  | updateOnly =>
    rw [handlePeerLine]
    split
    · exact SetState.thins_dropPeer
    · exact .refl _
  | remove => exact SetState.thins_dropPeer
  | keepalive seconds =>
    rw [handlePeerLine]
    split
    · exact SetState.thins_modifyPeer fun _ => rfl
    · exact .refl _
  | replaceAllowedIPs => exact SetState.thins_modifyTable _
  | allowedIP text =>
    by_cases minus : ∃ rest, text = '-' :: rest
    · obtain ⟨rest, rfl⟩ := minus
      rw [handlePeerLine]
      split
      · exact .refl _
      · exact SetState.thins_modifyTable _
    · rw [handlePeerLine]
      · split
        · exact .refl _
        · exact SetState.thins_modifyTable _
      · exact fun rest same => minus ⟨rest, same⟩
  | _ => exact .refl _

/-- **One line.** -/
theorem kept_handleLine {s : SetState K} (kept : Kept s.dev configured) (line : Line K) :
    Kept (handleLine ops listen s line).1.dev (noteLine s configured line) := by
  by_cases opens : ∃ key, line = .publicKey key
  · obtain ⟨key, rfl⟩ := opens
    exact kept_publicKey ops listen kept key
  · by_cases sets : ∃ text, line = .endpoint text
    · obtain ⟨text, rfl⟩ := sets
      exact kept_endpoint ops listen kept text
    · have same : noteLine s configured line = configured := by
        cases line with
        | publicKey key => exact (opens ⟨key, rfl⟩).elim
        | endpoint text => exact (sets ⟨text, rfl⟩).elim
        | _ => rfl
      rw [handleLine_eq ops listen s fun key is => opens ⟨key, is⟩, same]
      split
      · exact kept.thins (thins_handleDeviceLine ops listen s line)
      · exact kept.thins (thins_handlePeerLine s fun text is => sets ⟨text, is⟩)

/-- The configured endpoints after the loop of `IpcSetOperation`. -/
def noteLines : List (Line K) → SetState K → (K → Bool) → K → Bool
  | [], _, configured => configured
  | line :: lines, s, configured =>
    match handleLine ops listen s line with
    | (s', none) => noteLines lines s' (noteLine s configured line)
    | (_, some _) => noteLine s configured line

theorem kept_runLines (lines : List (Line K)) {s : SetState K} (kept : Kept s.dev configured) :
    Kept (runLines ops listen lines s).1.dev (noteLines ops listen lines s configured) := by
  induction lines generalizing s configured with
  | nil => exact kept
  | cons line lines ih =>
    have one := kept_handleLine ops listen kept line
    rw [runLines, noteLines]
    cases outcome : handleLine ops listen s line with
    | mk s' failed =>
      rw [outcome] at one
      cases failed with
      | none => exact ih one
      | some failed => exact one

/-- The configured endpoints after `IpcSetOperation`. -/
def noteSet (dev : Device K) (lines : List (Line K)) (configured : K → Bool) : K → Bool :=
  noteLines ops listen lines (.start dev) configured

/-- **A set operation takes no endpoint away.** -/
theorem kept_ipcSetOperation (lines : List (Line K)) (kept : Kept dev configured) :
    Kept (ipcSetOperation ops listen dev lines).1.1 (noteSet ops listen dev lines configured) := by
  have ran := kept_runLines ops listen lines (s := .start dev) kept
  rw [ipcSetOperation, noteSet]
  cases outcome : runLines ops listen lines (.start dev) with
  | mk s failed =>
    rw [outcome] at ran
    cases failed with
    | none => exact ran.thins s.alike_handlePostConfig.thins
    | some failed => exact ran

end Wireguard
