import WireguardMesh.Foundation.Ledger
import WireguardMesh.Foundation.Runs
import WireguardMesh.Net.Prefix
import WireguardMesh.Store.Auth

/-! # Logins

`handleLogin` as the server runs it, many requests at a time. A request passes the gate, reads
its body, has its password compared, and then records the failure or clears the failures of its
address; each of these is a step of its own, taken at its own time, and steps of different requests
interleave in any way. Requests that are no POST end before the gate and are left out.
-/

namespace Api

open Net Store

def cloudflareCIDRs : List String := [
  "173.245.48.0/20", "103.21.244.0/22", "103.22.200.0/22", "103.31.4.0/22", "141.101.64.0/18",
  "108.162.192.0/18", "190.93.240.0/20", "188.114.96.0/20", "197.234.240.0/22", "198.41.128.0/17",
  "162.158.0.0/15", "104.16.0.0/13", "104.24.0.0/14", "172.64.0.0/13", "131.0.72.0/22",
  "2400:cb00::/32", "2606:4700::/32", "2803:f800::/32", "2405:b500::/32", "2405:8100::/32",
  "2a06:98c0::/29", "2c0f:f248::/32"]

def isCloudflareIP (ip : Addr) : Bool :=
  (cloudflareCIDRs.filterMap fun s => parsePrefix s.toList).any fun p => p.contains ip.unmap

def isBanableAuthIP (ip : String) : Bool :=
  match (parseAddr ip.toList).map Addr.unmap with
  | none => false
  | some addr =>
    addr ≠ .zero ∧ ¬ addr.isLoopback ∧ ¬ addr.isPrivate ∧
      ¬ (addr = .v4 0 ∨ addr = .v6 0 []) ∧ ¬ addr.isLinkLocalUnicast ∧ ¬ isCloudflareIP addr

/-- How far a request has come. -/
inductive Stage
  /-- It has passed the gate. -/
  | reading
  /-- Its login was refused, and the failure is to be recorded. -/
  | failed
  /-- It has a token, and the failures of its address are to be cleared. -/
  | won
deriving DecidableEq

structure Request where
  ip : String
  stage : Stage
deriving DecidableEq

/-- The answers of `handleLogin`. -/
inductive Reply
  /-- 403, `ip permanently banned due to too many failed logins` -/
  | banned
  /-- 500, `auth store error` -/
  | storeError
  /-- 400, `invalid json` -/
  | invalidJSON
  /-- 401, `invalid password` -/
  | invalidPassword
  /-- 200, with a token -/
  | token
deriving DecidableEq

/-- What came of the comparison of a password: a right one may still get no token. -/
inductive Outcome
  | wrong
  | unissued
  | success
deriving DecidableEq

/-- A password of a request of an address, compared with the admin password. -/
structure Comparison where
  ip : String
  time : Nat
  outcome : Outcome
deriving DecidableEq

/-- The server: its tables, the requests in progress, the answers so far, all comparisons so far
and the time. -/
structure Server where
  tables : AuthTables
  requests : GoMap Nat Request
  replies : List (Nat × Reply)
  compared : List Comparison
  clock : Nat

/-- What a request does next. Calls of the store and the issuing of tokens may fail. -/
inductive Action
  /-- `authGate` -/
  | gate (r : Nat) (ip : String) (storeFails : Bool)
  /-- `readJSON` fails. -/
  | badBody (r : Nat)
  /-- `sessions.login` -/
  | compare (r : Nat) (password : String) (issueFails : Bool)
  /-- `recordLoginFailure` -/
  | record (r : Nat) (fault : Option RecordFault)
  /-- `clearLoginFailures` -/
  | clear (r : Nat) (storeFails : Bool)

/-- An action at a time. -/
structure Event where
  now : Nat
  action : Action

namespace Server

/-- A request ends with an answer. -/
def finish (s : Server) (r : Nat) (reply : Reply) : Server :=
  { s with requests := s.requests.erase r, replies := s.replies ++ [(r, reply)] }

/-- A request goes on. -/
def advance (s : Server) (r : Nat) (ip : String) (stage : Stage) : Server :=
  { s with requests := s.requests.insert r ⟨ip, stage⟩ }

/-- `authGate`; the number of a request in progress is not given to another one. -/
def authGate (s : Server) (r : Nat) (ip : String) (storeFails : Bool) : Server :=
  if r ∈ s.requests then s
  else if ¬ isBanableAuthIP ip then s.advance r ip .reading
  else if storeFails then s.finish r .storeError
  else if s.tables.isAuthBanned ip then s.finish r .banned
  else s.advance r ip .reading

/-- The outcome of `sessions.login`. -/
def outcomeOf (admin password : String) (issueFails : Bool) : Outcome :=
  if password ≠ admin then .wrong else if issueFails then .unissued else .success

def login (admin : String) (s : Server) (r : Nat) (ip : String) (now : Nat) (password : String)
    (issueFails : Bool) : Server :=
  let outcome := outcomeOf admin password issueFails
  let s : Server := { s with compared := s.compared ++ [⟨ip, now, outcome⟩] }
  if outcome = .success then s.advance r ip .won else s.advance r ip .failed

def recordLoginFailure (s : Server) (r : Nat) (ip : String) (now : Nat)
    (fault : Option RecordFault) : Server :=
  if ¬ isBanableAuthIP ip then s.finish r .invalidPassword
  else
    let (result, tables) := s.tables.recordAuthFailure ip now fault
    let s : Server := { s with tables := tables }
    match result with
    | none => s.finish r .storeError
    | some (true, _) => s.finish r .banned
    | some (false, _) => s.finish r .invalidPassword

/-- `clearLoginFailures`, whose error is ignored. -/
def clearLoginFailures (s : Server) (r : Nat) (ip : String) (storeFails : Bool) : Server :=
  let tables := if storeFails then s.tables else s.tables.clearAuthFailures ip
  let s : Server := { s with tables := tables }
  s.finish r .token

/-- An action of a request that is not at this point leaves the server as it is. -/
def act (admin : String) (s : Server) (now : Nat) : Action → Server
  | .gate r ip storeFails => s.authGate r ip storeFails
  | .badBody r =>
    match s.requests.lookup r with
    | some ⟨_, .reading⟩ => s.finish r .invalidJSON
    | _ => s
  | .compare r password issueFails =>
    match s.requests.lookup r with
    | some ⟨ip, .reading⟩ => login admin s r ip now password issueFails
    | _ => s
  | .record r fault =>
    match s.requests.lookup r with
    | some ⟨ip, .failed⟩ => s.recordLoginFailure r ip now fault
    | _ => s
  | .clear r storeFails =>
    match s.requests.lookup r with
    | some ⟨ip, .won⟩ => s.clearLoginFailures r ip storeFails
    | _ => s

def step (admin : String) (s : Server) (e : Event) : Server :=
  { act admin s e.now e.action with clock := e.now }

/-- A server that has not answered anyone, on a store without bans and failures. -/
def start : Server :=
  ⟨⟨[], []⟩, ∅, [], [], 0⟩

end Server

end Api
