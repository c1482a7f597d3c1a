import WireguardMesh.Conn.TransportConfig
import WireguardMesh.Foundation.Runs

/-! # Pushing a transport config

`SetTransportConfigJSON` keeps the pushed text in a global and reloads the open binds; `Open` loads
the config again. A text that does not load leaves the open binds alone, but it stays in the
global, and every `Open` fails on it until the next push. The code behaves as a machine that takes
a text only if it loads (`Conn.Binds.take`) if and only if no closed bind is opened while the
global holds a text that does not load (`Conn.push_harmless_iff`).
-/

namespace Conn

variable (lib : ConfigLibrary)

/-! ## What a bind takes from a config -/

def defaultMCHandshakeTime : Int := 5 * 10 ^ 9
def defaultDialTimeout : Int := 3 * 10 ^ 9
def defaultReconnectInitial : Int := 10 ^ 9
def defaultReconnectMax : Int := 30 * 10 ^ 9
def defaultRXIdleTimeout : Int := 5 * 10 ^ 9

def parseDurationWithDefault (v : Bytes) (defaultVal : Int) : Int :=
  let v := trimSpaceBytes v
  if v = [] then defaultVal else (lib.parseDuration v).getD defaultVal

/-- The trimmed text, or the default when nothing is left of it. -/
def trimmedOr (v defaultVal : Bytes) : Bytes :=
  let v := trimSpaceBytes v
  if v = [] then defaultVal else v

structure McCamouflageConfig extends McDeepConfig where
  timeout : Int
deriving DecidableEq

def loadMCCamouflageConfig (fileCfg : McConfigFile) : Except TransportError McCamouflageConfig :=
  let timeout := parseDurationWithDefault lib fileCfg.handshakeTimeout defaultMCHandshakeTime
  .ok {
    enabled := fileCfg.enabled.getD true
    deep := fileCfg.deepCamouflage.getD true
    timeout := if timeout ≤ 0 then defaultMCHandshakeTime else timeout
    loginUsername := trimmedOr fileCfg.loginUsername (ascii "Steve")
    pluginChannel := trimmedOr fileCfg.loginPluginChannel (ascii "minecraft:register")
    pluginSecret := trimmedOr fileCfg.loginPluginSecret (ascii "lasitan-cluster-internal")
    rejectMessage := trimmedOr fileCfg.rejectMessage
      (ascii "You are not whitelisted on this server!") }

def normalizeCamoProfile (p : Bytes) : CamoProfile :=
  let p := trimSpaceBytes (lib.toLower p)
  if p ∈ ["", "off", "disabled", "none"].map ascii then .none
  else if p ∈ ["mc", "minecraft", "minecraft-java"].map ascii then .minecraft
  else if p ∈ ["source", "cs2", "csgo", "goldsrc"].map ascii then .source
  else if p = ascii "terraria" then .terraria
  else if p ∈ ["steam", "valheim", "rust", "ark"].map ascii then .steam
  else if p ∈ ["bedrock", "minecraft-bedrock"].map ascii then .bedrock
  else if p ∈ ["fivem", "gta"].map ascii then .fiveM
  else .unknown ((String.fromUTF8? ⟨p.toArray⟩).getD "")

/-- `camoSharedConfig`. -/
structure SharedConfig extends CamoConfig where
  timeout : Int
deriving DecidableEq

def loadCamouflageConfig (fileCfg : TransportConfigFile) :
    Except TransportError (SharedConfig × McCamouflageConfig) := do
  let mc ← loadMCCamouflageConfig lib fileCfg.mc
  let cf := fileCfg.camouflage
  let profile :=
    if cf.profile = [] then if mc.enabled then .minecraft else .none
    else normalizeCamoProfile lib cf.profile
  let shared : SharedConfig := {
    profile := profile
    deep := cf.deep.getD mc.deep
    timeout :=
      if trimSpaceBytes cf.handshakeTimeout ≠ [] then
        parseDurationWithDefault lib cf.handshakeTimeout defaultMCHandshakeTime
      else mc.timeout
    loginUsername := trimmedOr cf.loginUsername mc.loginUsername
    pluginChannel := trimmedOr cf.loginPluginChannel mc.pluginChannel
    pluginSecret := trimmedOr cf.loginPluginSecret mc.pluginSecret
    rejectMessage := trimmedOr cf.rejectMessage mc.rejectMessage
    serverName := trimmedOr cf.serverName (ascii "Dedicated Server")
    secure := cf.secure.getD false }
  let mc :=
    if profile = .minecraft then
      { enabled := true
        deep := shared.deep
        timeout := shared.timeout
        pluginSecret := shared.pluginSecret
        pluginChannel := shared.pluginChannel
        loginUsername := shared.loginUsername
        rejectMessage := shared.rejectMessage }
    else if profile ≠ .none then { mc with enabled := false }
    else mc
  .ok (shared, mc)

structure ReconnectConfig where
  initial : Int
  max : Int
  dialTimeout : Int
  rxIdleTimeout : Int
  allowOutbound : Bool
deriving DecidableEq

def loadReconnectConfig (fileCfg : TcpConfigFile) : ReconnectConfig :=
  let duration := fun (v : Bytes) (defaultVal : Int) =>
    parseDurationWithDefault lib v defaultVal
  let positive := fun (d defaultVal : Int) => if d ≤ 0 then defaultVal else d
  let initial := positive (duration fileCfg.reconnectInitialBackoff defaultReconnectInitial)
    defaultReconnectInitial
  let max := duration fileCfg.reconnectMaxBackoff defaultReconnectMax
  { initial := initial
    max := if max < initial then initial else max
    dialTimeout := positive (duration fileCfg.dialTimeout defaultDialTimeout) defaultDialTimeout
    rxIdleTimeout := positive (duration fileCfg.rxIdleTimeout defaultRXIdleTimeout)
      defaultRXIdleTimeout
    allowOutbound := fileCfg.allowOutboundDial.getD true }

/-- The configs of a `TCPBind`. -/
structure BindConfig where
  camoShared : SharedConfig
  mcConfig : McCamouflageConfig
  reconnect : ReconnectConfig
deriving DecidableEq

/-- What `Open` and `reloadOpenBinds` load. -/
def loadBindConfig (file : LocalFile) (override : Bytes) : Except TransportError BindConfig := do
  let fileCfg ← loadTransportConfigFile lib file override
  let (shared, mc) ← loadCamouflageConfig lib fileCfg
  .ok ⟨shared, mc, loadReconnectConfig lib fileCfg.tcp⟩

/-! ## The binds -/

/-- The fields of a `TCPBind` that its configs depend on. -/
structure BindState where
  isOpen : Bool
  config : BindConfig
deriving DecidableEq

/-- The configs of a bind that has never been opened. -/
def zeroConfig : BindConfig where
  camoShared := ⟨⟨⟨.none, [], []⟩, false, false, [], [], []⟩, 0⟩
  mcConfig := ⟨⟨false, false, [], [], [], []⟩, 0⟩
  reconnect := ⟨0, 0, 0, 0, false⟩

/-- `transportOverride`, empty when there is none, and the binds. -/
structure Binds where
  override : Bytes
  bind : Nat → BindState

/-- The state of a fresh process. -/
def Binds.start : Binds :=
  ⟨[], fun _ => ⟨false, zeroConfig⟩⟩

inductive TransportCall
  /-- `SetTransportConfigJSON` -/
  | set (data : Bytes)
  /-- `Open`, with whether its listeners open -/
  | openBind (b : Nat) (listens : Bool)
  /-- `Close` -/
  | close (b : Nat)

inductive OpenError
  | alreadyOpen
  | config (e : TransportError)
  | listen
deriving DecidableEq

namespace Binds

variable (file : LocalFile) (s : Binds)

def reloadOpenBinds : Binds :=
  match loadBindConfig lib file s.override with
  | .error _ => s
  | .ok config => { s with
      bind := fun b => if (s.bind b).isOpen then { s.bind b with config := config } else s.bind b }

def setTransportConfigJSON (data : Bytes) : Binds :=
  let changed := s.override ≠ data
  let s := { s with override := data }
  if changed then s.reloadOpenBinds lib file else s

/-- `Open`: its result, and the bind after it. -/
def openBind (b : BindState) (listens : Bool) : Except OpenError Unit × BindState :=
  if b.isOpen then (.error .alreadyOpen, b)
  else match loadBindConfig lib file s.override with
  | .error e => (.error (.config e), b)
  | .ok config =>
    if listens then (.ok (), ⟨true, config⟩) else (.error .listen, { b with config := config })

end Binds

/-- `Close`, which keeps the shared config. -/
def BindState.close (b : BindState) : BindState :=
  if b.isOpen then ⟨false, { zeroConfig with camoShared := b.config.camoShared }⟩ else b

namespace Binds

variable (file : LocalFile) (s : Binds)

/-- What a call returns and does. -/
def call : TransportCall → Except OpenError Unit × Binds
  | .set data => (.ok (), s.setTransportConfigJSON lib file data)
  | .openBind b listens =>
    let (result, after) := s.openBind lib file (s.bind b) listens
    (result, { s with bind := Function.update s.bind b after })
  | .close b => (.ok (), { s with bind := Function.update s.bind b (s.bind b).close })

/-- Whether a pushed text is one that loads. -/
def Loads (data : Bytes) : Prop :=
  ∃ config, loadBindConfig lib file data = .ok config

instance (data : Bytes) : Decidable (Loads lib file data) :=
  match loaded : loadBindConfig lib file data with
  | .ok config => isTrue ⟨config, loaded⟩
  | .error _ => isFalse fun ⟨_, loads⟩ => by rw [loads] at loaded; cases loaded

/-- **The purpose of a push.** A text that does not load is not taken. -/
def take (c : TransportCall) : Except OpenError Unit × Binds :=
  match c with
  | .set data => if Loads lib file data then s.call lib file c else (.ok (), s)
  | .openBind _ _ | .close _ => s.call lib file c

end Binds

/-- The code and its purpose, under the same calls. -/
abbrev Pushed := Binds × Binds

namespace Pushed

variable (file : LocalFile) (p : Pushed)

def step (c : TransportCall) : Pushed :=
  ((p.1.call lib file c).2, (p.2.take lib file c).2)

/-- A call returns what it should, and leaves the binds as it should. -/
def Harmless (c : TransportCall) : Prop :=
  (p.1.call lib file c).1 = (p.2.take lib file c).1 ∧
    (p.1.call lib file c).2.bind = (p.2.take lib file c).2.bind

/-- A closed bind is only opened when the pushed text is the last one that loads. -/
def Prompt : TransportCall → Prop
  | .openBind b _ => (p.1.bind b).isOpen = true ∨ p.1.override = p.2.override
  | .set _ | .close _ => True

/-- What holds between the code and its purpose as long as the calls are harmless. -/
structure Agree : Prop where
  bind : p.1.bind = p.2.bind
  latest : Binds.Loads lib file p.1.override → p.1.override = p.2.override
  taken : p.2.override = [] ∨ Binds.Loads lib file p.2.override
  loaded : ∀ b, (p.2.bind b).isOpen = true →
    loadBindConfig lib file p.2.override = .ok (p.2.bind b).config

end Pushed

variable {lib} {file : LocalFile}

theorem loadBindConfig_error {override : Bytes} {e : TransportError}
    (failed : loadBindConfig lib file override = .error e) :
    override ≠ [] ↔ ∃ cause, e = .parseRemote cause := by
  have parsed : loadTransportConfigFile lib file override = .error e := by
    rw [loadBindConfig] at failed
    cases read : loadTransportConfigFile lib file override with
    | error e' =>
      rw [read] at failed
      cases failed
      rfl
    | ok fileCfg =>
      rw [read] at failed
      cases failed
  rw [loadTransportConfigFile.eq_def] at parsed
  split at parsed
  · next pushed =>
    refine ⟨fun _ => ?_, fun _ => pushed⟩
    cases decoded : lib.unmarshal (unwrapped lib override) with
    | error cause =>
      rw [decoded] at parsed
      cases parsed
      exact ⟨cause, rfl⟩
    | ok fileCfg =>
      rw [decoded] at parsed
      cases parsed
  · next none =>
    refine ⟨fun pushed => absurd pushed none, ?_⟩
    rintro ⟨cause, rfl⟩
    cases file with
    | missing => cases parsed
    | unreadable cause => cases parsed
    | found data =>
      dsimp only at parsed
      cases decoded : lib.unmarshal (stripJSONComments data) with
      | error cause =>
        rw [decoded] at parsed
        cases parsed
      | ok fileCfg =>
        rw [decoded] at parsed
        cases parsed

theorem set_of_not_loads {s : Binds} {data : Bytes} (rejected : ¬ Binds.Loads lib file data) :
    (s.setTransportConfigJSON lib file data).bind = s.bind := by
  rw [Binds.setTransportConfigJSON]
  split
  · rw [Binds.reloadOpenBinds]
    split
    · rfl
    · next config loads => exact absurd ⟨config, loads⟩ rejected
  · rfl

theorem override_set {s : Binds} {data : Bytes} :
    (s.setTransportConfigJSON lib file data).override = data := by
  rw [Binds.setTransportConfigJSON]
  split
  · rw [Binds.reloadOpenBinds]
    split <;> rfl
  · rfl

theorem set_of_loads {s : Binds} {data : Bytes} {config : BindConfig}
    (loads : loadBindConfig lib file data = .ok config)
    (current : s.override = data → ∀ b, (s.bind b).isOpen = true → (s.bind b).config = config) :
    (s.setTransportConfigJSON lib file data).bind = fun b =>
      if (s.bind b).isOpen then { s.bind b with config := config } else s.bind b := by
  rw [Binds.setTransportConfigJSON]
  split
  · rw [Binds.reloadOpenBinds]
    simp only [loads]
  · next same =>
    funext b
    split
    · next opened =>
      have kept := current (not_not.mp same) b opened
      subst kept
      rfl
    · rfl

namespace Pushed

variable {p : Pushed}

theorem agree_start : Agree lib file (Binds.start, Binds.start) where
  bind := rfl
  latest _ := rfl
  taken := .inl rfl
  loaded _ opened := absurd opened Bool.false_ne_true

variable (agree : Agree lib file p)

include agree

theorem Agree.current {data : Bytes} {config : BindConfig}
    (loads : loadBindConfig lib file data = .ok config) : p.2.override = data →
      ∀ b, (p.2.bind b).isOpen = true → (p.2.bind b).config = config := by
  rintro rfl b opened
  exact Except.ok.inj ((agree.loaded b opened).symm.trans loads)

theorem Agree.bind_set (data : Bytes) :
    (p.1.call lib file (.set data)).2.bind = (p.2.take lib file (.set data)).2.bind := by
  rw [Binds.take]
  split
  · next loads =>
    obtain ⟨config, loads⟩ := loads
    have ideal := agree.current loads
    have code : p.1.override = data → ∀ b, (p.1.bind b).isOpen = true →
        (p.1.bind b).config = config := by
      rintro rfl
      rw [agree.bind]
      exact ideal (agree.latest ⟨config, loads⟩).symm
    refine (set_of_loads loads code).trans ?_
    rw [agree.bind]
    exact (set_of_loads loads ideal).symm
  · next rejected => exact (set_of_not_loads rejected).trans agree.bind

theorem Agree.open_eq (same : p.1.override = p.2.override) :
    p.1 = p.2 := by
  obtain ⟨⟨override, bind⟩, override', bind'⟩ := p
  obtain rfl : override = override' := same
  obtain rfl : bind = bind' := agree.bind
  rfl

/-- A text that does not load makes `Open` fail in another way than it should, if at all. -/
theorem Agree.open_ne {b : Nat} {listens : Bool}
    (closed : (p.1.bind b).isOpen ≠ true) (differs : p.1.override ≠ p.2.override) :
    (p.1.call lib file (.openBind b listens)).1 ≠ (p.2.take lib file (.openBind b listens)).1 := by
  have rejected : ¬ Binds.Loads lib file p.1.override := fun loads => differs (agree.latest loads)
  have closed' : (p.2.bind b).isOpen ≠ true := agree.bind ▸ closed
  rw [Binds.take, Binds.call, Binds.call, Binds.openBind, Binds.openBind, if_neg closed,
    if_neg closed']
  cases failed : loadBindConfig lib file p.1.override with
  | ok config => exact absurd ⟨config, failed⟩ rejected
  | error e =>
    cases should : loadBindConfig lib file p.2.override with
    | ok config => cases listens <;> nofun
    | error e' =>
      -- only the local file may fail to load, and its errors are others
      have local' : p.2.override = [] := agree.taken.resolve_right fun ⟨_, loads⟩ => by
        rw [loads] at should
        cases should
      have pushed : p.1.override ≠ [] := fun none => differs (none.trans local'.symm)
      obtain ⟨cause, rfl⟩ := (loadBindConfig_error failed).mp pushed
      intro same
      cases same
      exact (loadBindConfig_error should).mpr ⟨cause, rfl⟩ local'

/-- Where the two agree, a call is harmless if and only if it opens no closed bind on another
text. -/
theorem Agree.harmless_iff (c : TransportCall) :
    Harmless lib file p c ↔ Prompt p c := by
  cases c with
  | set data =>
    refine iff_of_true ⟨?_, agree.bind_set data⟩ trivial
    rw [Binds.take]
    split <;> rfl
  | close b =>
    refine iff_of_true ⟨rfl, ?_⟩ trivial
    rw [Binds.take, Binds.call, Binds.call, agree.bind]
  | openBind b listens =>
    constructor
    · intro harmless
      by_cases closed : (p.1.bind b).isOpen = true
      · exact .inl closed
      · exact .inr (not_not.mp fun differs => agree.open_ne closed differs harmless.1)
    · rintro (opened | same)
      · have opened' : (p.2.bind b).isOpen = true := agree.bind ▸ opened
        rw [Harmless, Binds.take, Binds.call, Binds.call, Binds.openBind, Binds.openBind,
          if_pos opened, if_pos opened', agree.bind]
        exact ⟨rfl, rfl⟩
      · rw [Harmless, agree.open_eq same]
        exact ⟨rfl, rfl⟩

omit agree

theorem loaded_openBind {s : Binds} {b : BindState} {listens : Bool}
    (before : b.isOpen = true → loadBindConfig lib file s.override = .ok b.config)
    (opened : (s.openBind lib file b listens).2.isOpen = true) :
    loadBindConfig lib file s.override = .ok (s.openBind lib file b listens).2.config := by
  revert opened
  rw [Binds.openBind]
  split
  · next already => exact fun _ => before already
  · next closed =>
    cases loads : loadBindConfig lib file s.override with
    | error e => exact fun opened => absurd opened closed
    | ok config =>
      cases listens with
      | true => exact fun _ => rfl
      | false => exact fun opened => absurd opened closed

theorem Agree.loaded_take (agree : Agree lib file p) (c : TransportCall) (b : Nat)
    (opened : ((p.2.take lib file c).2.bind b).isOpen = true) :
    loadBindConfig lib file (p.2.take lib file c).2.override =
      .ok ((p.2.take lib file c).2.bind b).config := by
  revert opened
  cases c with
  | set data =>
    rw [Binds.take]
    split
    · next loads =>
      obtain ⟨config, loads⟩ := loads
      rw [Binds.call, override_set, set_of_loads loads (agree.current loads), loads]
      dsimp only
      split
      · exact fun _ => rfl
      · next closed => exact fun opened => absurd opened closed
    · exact agree.loaded b
  | openBind b' listens =>
    rw [Binds.take, Binds.call]
    by_cases here : b = b'
    · subst here
      dsimp only
      rw [Function.update_self]
      exact loaded_openBind (agree.loaded b)
    · dsimp only
      rw [Function.update_of_ne here]
      exact agree.loaded b
  | close b' =>
    rw [Binds.take, Binds.call]
    by_cases here : b = b'
    · subst here
      dsimp only
      rw [Function.update_self, BindState.close]
      split
      · exact fun opened => absurd opened Bool.false_ne_true
      · next closed => exact fun opened => absurd opened closed
    · dsimp only
      rw [Function.update_of_ne here]
      exact agree.loaded b

/-- **A harmless call keeps the two in agreement.** -/
theorem Agree.step (agree : Agree lib file p) {c : TransportCall}
    (harmless : Harmless lib file p c) : Agree lib file (step lib file p c) where
  bind := harmless.2
  loaded := agree.loaded_take c
  latest := by
    cases c with
    | set data =>
      intro loads
      change Binds.Loads lib file (p.1.setTransportConfigJSON lib file data).override at loads
      rw [override_set] at loads
      change (p.1.setTransportConfigJSON lib file data).override = (p.2.take lib file _).2.override
      rw [Binds.take, if_pos loads, override_set]
      exact override_set.symm
    | openBind b listens => exact agree.latest
    | close b => exact agree.latest
  taken := by
    cases c with
    | set data =>
      change (p.2.take lib file _).2.override = [] ∨ Binds.Loads lib file (p.2.take lib file _).2.override
      rw [Binds.take]
      split
      · next loads =>
        refine .inr ?_
        change Binds.Loads lib file (p.2.setTransportConfigJSON lib file data).override
        rw [override_set]
        exact loads
      · exact agree.taken
    | openBind b listens => exact agree.taken
    | close b => exact agree.taken

end Pushed

/-- **When a malformed push is harmless.** Along every sequence of calls, each returns what it
would if texts that do not load were never pushed, and leaves the binds as they then would be, if
and only if no closed bind is opened while the pushed text is not the last that loads. -/
theorem push_harmless_iff (lib : ConfigLibrary) (file : LocalFile) (calls : List TransportCall) :
    Runs.Along (Pushed.step lib file) (Pushed.Harmless lib file) (Binds.start, Binds.start) calls ↔
      Runs.Along (Pushed.step lib file) Pushed.Prompt (Binds.start, Binds.start) calls :=
  Runs.along_iff (Pushed.Agree lib file) (fun _ c agree _ => agree.harmless_iff c)
    (fun _ _ agree _ harmless => agree.step harmless) Pushed.agree_start
    (Runs.along_trivial _ _)

/-- After a push of an unfinished object a bind does not open any more. -/
theorem unfinishedPush_fails :
    (Binds.start.call objectLibrary .missing (.openBind 0 true)).1 = .ok () ∧
      ((Binds.start.call objectLibrary .missing (.set (ascii "\x7b"))).2.call objectLibrary .missing
        (.openBind 0 true)).1 = .error (.config (.parseRemote "invalid character")) ∧
      ¬ Runs.Along (Pushed.step objectLibrary .missing) (Pushed.Harmless objectLibrary .missing)
        (Binds.start, Binds.start) [.set (ascii "\x7b"), .openBind 0 true] := by
  refine ⟨rfl, by decide +kernel, fun harmless => ?_⟩
  exact absurd harmless.2.1.1 (by decide +kernel)

end Conn
