import WireguardMesh.Agent.Endpoints
import WireguardMesh.Tunnel.Desired

/-! # The applier of the agent

`applier` applies the configs that a Master session pushes. It skips revisions that are older
than one offered in the session, or equal to the applied one, and remembers the last config
that it applied, which the next hot apply is a difference to. `Agent.apply_result` lists what a
call can do; nothing else about `apply` is needed to reason about sequences of calls.

The transport profile that `apply` hands to the bind and the poll interval are left out.
-/

namespace Agent

open Core Tunnel Wireguard

structure Applier (K : Type) where
  dev : Device K
  iface : String
  masterHost : String
  appliedRev : Int
  applied : Option DesiredConfig
  newestRev : Int
  udpMode : Bool

/-- Why a call of `apply` fails. -/
inductive Failure
  /-- `switch bind udp=%v: %w` -/
  | switchBind
  /-- `apply desired rev=%d: %w` -/
  | desired (failed : ApplyError)
deriving DecidableEq

variable {K : Type} [DecidableEq K]

/-- `newApplier`, with the host of the Master URL. -/
def newApplier (dev : Device K) (iface masterHost : String) : Applier K :=
  ⟨dev, iface, masterHost, -1, none, -1, false⟩

namespace Applier

def resetSession (a : Applier K) : Applier K :=
  { a with newestRev := -1 }

def withLocalIface (a : Applier K) (d : DesiredConfig) : DesiredConfig :=
  if a.iface = "" ∨ d.interfaceName = a.iface then d else { d with interfaceName := a.iface }

/-- The config that `apply` works with. -/
def localized (a : Applier K) (d : DesiredConfig) : DesiredConfig :=
  a.withLocalIface (resolveRelay a.masterHost d)

/-- The bind of the mode of a config. -/
def switchBind (listen : UInt16 → Option UInt16) (a : Applier K) (udpMode : Bool) :
    Device K × Bool :=
  if udpMode = a.udpMode then (a.dev, true) else bindReplace listen a.dev !udpMode

variable (decode : String → Option K) (ops : KeyOps K)

def apply (a : Applier K) (around : Surroundings K) (desired : DesiredConfig) :
    Applier K × Option Failure :=
  if desired.revision < a.newestRev then (a, none)
  else if desired.revision = a.appliedRev then ({ a with newestRev := desired.revision }, none)
  else match a.switchBind around.listen desired.udpMode with
  | (dev, false) =>
    ({ a with newestRev := desired.revision, dev := dev }, some .switchBind)
  | (dev, true) =>
    match applyDesiredConfig decode ops around dev (a.localized desired) a.applied with
    | (dev, some failed) =>
      ({ a with
          newestRev := desired.revision
          udpMode := desired.udpMode
          dev := dev }, some (.desired failed))
    | (dev, none) =>
      ({ a with
          newestRev := desired.revision
          udpMode := desired.udpMode
          dev := dev
          applied := some (a.localized desired)
          appliedRev := desired.revision }, none)

/-- A config that `apply` does not skip. -/
def Offers (a : Applier K) (d : DesiredConfig) : Prop :=
  a.newestRev ≤ d.revision ∧ d.revision ≠ a.appliedRev

instance (a : Applier K) (d : DesiredConfig) : Decidable (a.Offers d) :=
  inferInstanceAs (Decidable (_ ∧ _))

/-- A call that applies the revision of its config. -/
def Applies (a : Applier K) (around : Surroundings K) (d : DesiredConfig) : Prop :=
  a.Offers d ∧ (a.apply decode ops around d).2 = none

instance (a : Applier K) (around : Surroundings K) (d : DesiredConfig) :
    Decidable (a.Applies decode ops around d) :=
  inferInstanceAs (Decidable (_ ∧ _))

end Applier

/-- What a call of `apply` can do. -/
inductive ApplyResult (a : Applier K) (d : DesiredConfig) : Applier K → Option Failure → Prop
  | stale : d.revision < a.newestRev → ApplyResult a d a none
  | same : a.newestRev ≤ d.revision → d.revision = a.appliedRev →
      ApplyResult a d { a with newestRev := d.revision } none
  | failed (dev : Device K) (udpMode : Bool) (why : Failure) : a.Offers d →
      ApplyResult a d { a with newestRev := d.revision, udpMode := udpMode, dev := dev } (some why)
  | applied (dev : Device K) : a.Offers d →
      ApplyResult a d
        { a with
          newestRev := d.revision
          udpMode := d.udpMode
          dev := dev
          applied := some (a.localized d)
          appliedRev := d.revision } none

/-- **One call.** -/
theorem apply_result (decode : String → Option K) (ops : KeyOps K) (a : Applier K)
    (around : Surroundings K) (d : DesiredConfig) :
    ApplyResult a d (a.apply decode ops around d).1 (a.apply decode ops around d).2 := by
  rw [Applier.apply]
  split
  · next old => exact .stale old
  · next offered =>
    split
    · next same => exact .same (Int.not_lt.mp offered) same
    · next new =>
      have offers : a.Offers d := ⟨Int.not_lt.mp offered, new⟩
      split
      · exact .failed _ _ _ offers
      · split
        · exact .failed _ _ _ offers
        · exact .applied _ offers

section

variable {a a' : Applier K} {d : DesiredConfig} {failed : Option Failure}

omit [DecidableEq K] in
theorem ApplyResult.newest (result : ApplyResult a d a' failed) : a.newestRev ≤ a'.newestRev ∧
    d.revision ≤ a'.newestRev ∧ (a'.newestRev = a.newestRev ∨ a'.newestRev = d.revision) := by
  cases result with
  | stale old => exact ⟨le_rfl, le_of_lt old, .inl rfl⟩
  | same fresh => exact ⟨fresh, le_rfl, .inr rfl⟩
  | failed _ _ _ offers => exact ⟨offers.1, le_rfl, .inr rfl⟩
  | applied _ offers => exact ⟨offers.1, le_rfl, .inr rfl⟩

omit [DecidableEq K] in
theorem ApplyResult.content (result : ApplyResult a d a' failed) :
    (a'.appliedRev = a.appliedRev ∧ a'.applied = a.applied) ∨
      (a'.appliedRev = d.revision ∧ a'.applied = some (a.localized d)) := by
  cases result with
  | stale | same | failed => exact .inl ⟨rfl, rfl⟩
  | applied => exact .inr ⟨rfl, rfl⟩

omit [DecidableEq K] in
theorem ApplyResult.localized (result : ApplyResult a d a' failed) :
    a'.localized = a.localized := by
  cases result <;> rfl

end

end Agent
