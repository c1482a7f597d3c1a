import WireguardMesh.Net.HostPort

/-! # Port expressions of forwards

`core/ports.go`: ports, port ranges and `*`, the listen expression of a forward, and the
destination ports that belong to the listen ports.
-/

namespace Core

open GoText Net

/-- `core.PortSpan`: an inclusive range. -/
structure PortSpan where
  start : UInt16
  stop : UInt16
deriving DecidableEq

def PortSpan.len (s : PortSpan) : Int :=
  s.stop.toNat - s.start.toNat + 1

def PortSpan.canon (s : PortSpan) : String :=
  if s.start = s.stop then String.ofList (itoa s.start.toNat)
  else if s.start = 1 ∧ s.stop = 65535 then "*"
  else String.ofList (itoa s.start.toNat ++ '-' :: itoa s.stop.toNat)

/-- The ports of a range, in the order of the loops over it. -/
def PortSpan.ports (s : PortSpan) : List UInt16 :=
  (List.range' s.start.toNat (s.stop.toNat + 1 - s.start.toNat)).map UInt16.ofNat

/-- `parsePort`; none for `port must be 1-65535`. -/
def parsePort (s : List Char) : Option UInt16 :=
  match atoi (trimSpace s) with
  | none => none
  | some n => if n < 1 ∨ n > 65535 then none else some (UInt16.ofNat n.toNat)

/-- `core.ParsePortSpan`; none for its errors, which no caller shows. -/
def parsePortSpan (s : List Char) : Option PortSpan :=
  let s := trimSpace s
  if s = ['*'] then some ⟨1, 65535⟩
  else match splitFirst '-' s with
  | some (a, b) =>
    match parsePort a, parsePort b with
    | some start, some stop => if start > stop then none else some ⟨start, stop⟩
    | _, _ => none
  | none => (parsePort s).map fun p => ⟨p, p⟩

inductive PortError
  /-- `listen required` -/
  | listenRequired
  /-- `listen must be port, ip:port, a range, or *` -/
  | listenForm
  /-- `listen range required` -/
  | listenRangeRequired
  /-- `dest port required` -/
  | destPortRequired
  /-- `dest must be port, a range, or *` -/
  | destForm
  /-- `dest range exceeds 65535` -/
  | destExceeds
  /-- `dest range length must match listen` -/
  | destLength
deriving DecidableEq

/-- `net.ParseIP` succeeds on the literal addresses without zone. -/
def isIP (s : List Char) : Bool :=
  (parseAddr s).any fun addr => addr.withoutZone = addr

def parseListenExpr (s : String) : Except PortError (String × PortSpan) :=
  let s := trimSpace s.toList
  if s = [] then .error .listenRequired
  else match splitLast ':' s with
  | none =>
    match parsePortSpan s with
    | none => .error .listenForm
    | some span => .ok ("0.0.0.0", span)
  | some (host, portPart) =>
    let host := trimSpace host
    let host := if host = [] then "0.0.0.0".toList else host
    let host := trim host ['[', ']']
    if isIP host = false then .error .listenForm
    else match parsePortSpan portPart with
    | none => .error .listenForm
    | some span => .ok (String.ofList host, span)

/-- The explicit destination ports, before they are fitted to the listen ports. -/
def destSpan (destExpr : List Char) (destPort : UInt16) : Except PortError PortSpan :=
  if destExpr = [] then
    if destPort = 0 then .error .destPortRequired else .ok ⟨destPort, destPort⟩
  else match parsePortSpan destExpr with
  | none => .error .destForm
  | some dest => .ok dest

def resolveDest (listen : PortSpan) (destExpr : String) (destPort : UInt16) :
    Except PortError PortSpan :=
  let destExpr := trimSpace destExpr.toList
  if listen.len < 1 then .error .listenRangeRequired
  else if destExpr = ['*'] then .ok listen
  else match destSpan destExpr destPort with
  | .error e => .error e
  | .ok dest =>
    if dest.len = 1 ∧ listen.len > 1 then
      let stop := dest.start.toNat + listen.len - 1
      if stop > 65535 then .error .destExceeds
      else .ok ⟨dest.start, UInt16.ofNat stop.toNat⟩
    else if dest.len ≠ listen.len then .error .destLength
    else .ok dest

end Core
