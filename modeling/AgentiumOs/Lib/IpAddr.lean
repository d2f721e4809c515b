import Mathlib

/-! Internet addresses as the standard library has them: four octets or eight
segments, the classes of addresses, and the IPv4 address that an IPv6 address
may stand for. -/

namespace AgentiumOs.Lib

structure Ipv4Addr where
  octets : Vector UInt8 4
  deriving DecidableEq

structure Ipv6Addr where
  segments : Vector UInt16 8
  deriving DecidableEq

namespace Ipv4Addr

def new (a b c d : UInt8) : Ipv4Addr := ⟨#v[a, b, c, d]⟩

def isLoopback (ip : Ipv4Addr) : Bool := ip.octets[0] = 127

def isUnspecified (ip : Ipv4Addr) : Bool := ip = new 0 0 0 0

end Ipv4Addr

namespace Ipv6Addr

def new (a b c d e f g h : UInt16) : Ipv6Addr := ⟨#v[a, b, c, d, e, f, g, h]⟩

def isLoopback (ip : Ipv6Addr) : Bool := ip = new 0 0 0 0 0 0 0 1

def isUnspecified (ip : Ipv6Addr) : Bool := ip = new 0 0 0 0 0 0 0 0

/-- The IPv4 address of `::ffff:a.b.c.d`. -/
def toIpv4Mapped (ip : Ipv6Addr) : Option Ipv4Addr :=
  let s := ip.segments
  if s[0] = 0 ∧ s[1] = 0 ∧ s[2] = 0 ∧ s[3] = 0 ∧ s[4] = 0 ∧ s[5] = 0xffff then
    some (.new (s[6] >>> 8).toUInt8 s[6].toUInt8 (s[7] >>> 8).toUInt8 s[7].toUInt8)
  else none

end Ipv6Addr

inductive IpAddr where
  | v4 (ip : Ipv4Addr)
  | v6 (ip : Ipv6Addr)
  deriving DecidableEq

namespace IpAddr

def isLoopback : IpAddr → Bool
  | v4 ip => ip.isLoopback
  | v6 ip => ip.isLoopback

def isUnspecified : IpAddr → Bool
  | v4 ip => ip.isUnspecified
  | v6 ip => ip.isUnspecified

/-- An IPv4-mapped address is read as its IPv4 address. -/
def toCanonical : IpAddr → IpAddr
  | v4 ip => v4 ip
  | v6 ip => (ip.toIpv4Mapped.map v4).getD (v6 ip)

/-- The IPv4 address that an address of the other family stands for. -/
def mapped : IpAddr → Option Ipv4Addr
  | v4 _ => none
  | v6 ip => ip.toIpv4Mapped

theorem toCanonical_eq (ip : IpAddr) : ip.toCanonical = (ip.mapped.map v4).getD ip := by
  cases ip <;> rfl

end IpAddr

structure SocketAddr where
  ip : IpAddr
  port : UInt16
  deriving DecidableEq

end AgentiumOs.Lib
