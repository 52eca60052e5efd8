import Mathlib.Data.List.Basic

/-!
# Where a connection comes from

The address family of an API connection and, for a TCP/IP connection, its
remote end; for a UNIX socket, the user at the other end.
-/

namespace Middlewared

inductive AddressFamily where
  | inet
  | inet6
  | unix
deriving DecidableEq

structure ConnectionOrigin where
  family : AddressFamily
  remAddr : Option String := none
  remPort : Option ℕ := none
  uid : Option ℕ := none
  gid : Option ℕ := none

namespace ConnectionOrigin

def haHeartbeatIps : List String :=
  ["169.254.10.1", "169.254.10.2"]

def isUnixFamily (origin : ConnectionOrigin) : Bool :=
  origin.family = .unix

def isTcpIpFamily (origin : ConnectionOrigin) : Bool :=
  origin.family = .inet || origin.family = .inet6

def isHaConnection (origin : ConnectionOrigin) : Bool :=
  origin.isTcpIpFamily && origin.remPort.elim false (fun port => port ≠ 0 && port ≤ 1024) &&
    origin.remAddr.elim false fun address => address ∈ haHeartbeatIps

/-- `ConnectionOrigin.match`. -/
def matchOrigin (self origin : ConnectionOrigin) : Bool :=
  if self.isUnixFamily then
    self.uid = origin.uid && self.gid = origin.gid
  else self.remAddr = origin.remAddr

end ConnectionOrigin

end Middlewared
