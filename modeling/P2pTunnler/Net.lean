import Mathlib.Data.List.Basic

/-!
# Bytes, addresses and clocks

The parts of the standard library that the tunnel computes with. An address
is kept in the representation it was written in: an IPv4-mapped IPv6 address
is an IPv6 address, and two IPv6 socket addresses that differ only in the
scope are different. Times are in nanoseconds: an `Instant` or a `Duration` is
a `Nat`, a `SystemTime` an `Int` relative to the epoch.
-/

namespace P2pTunnler

abbrev Bytes := List UInt8

structure Octets (n : Nat) where
  toList : List UInt8
  length_toList : toList.length = n
  deriving DecidableEq

namespace Octets

attribute [simp] length_toList

@[ext] theorem ext {n : Nat} {v w : Octets n} (h : v.toList = w.toList) : v = w := by
  cases v; cases w; simp_all

def tryFrom (n : Nat) (l : Bytes) : Option (Octets n) :=
  if h : l.length = n then some ⟨l, h⟩ else none

theorem tryFrom_eq_some {n : Nat} {l : Bytes} {v : Octets n} : tryFrom n l = some v ↔ v.toList = l := by
  obtain ⟨w, hw⟩ := v
  unfold tryFrom
  split
  · rw [Option.some.injEq, Octets.mk.injEq]; exact eq_comm
  · rename_i h
    constructor
    · intro hc; cases hc
    · rintro rfl; exact absurd hw h

end Octets

/-! ## Failures -/

inductive ErrorKind
  | invalidInput
  | invalidData
  | unexpectedEof
  deriving DecidableEq

/-- How a computation stops early: an error value, or a panic. -/
inductive Fault
  | error (kind : ErrorKind) (reason : String)
  | panic
  deriving DecidableEq

theorem bind_eq_ok {α β : Type} {x : Except Fault α} {f : α → Except Fault β} {b : β} :
    (x >>= f) = .ok b ↔ ∃ a, x = .ok a ∧ f a = .ok b := by
  cases x with
  | error e => exact ⟨fun h => (by cases h), fun ⟨a, h, _⟩ => (by cases h)⟩
  | ok a => exact ⟨fun h => ⟨a, rfl, h⟩, fun ⟨_, h, hf⟩ => (by cases h; exact hf)⟩

def slice (bytes : Bytes) (start stop : Nat) : Except Fault Bytes :=
  if start ≤ stop ∧ stop ≤ bytes.length then .ok ((bytes.take stop).drop start) else .error .panic

/-! ## Addresses -/

structure Ipv4Addr where
  octets : Octets 4
  deriving DecidableEq

structure Ipv6Addr where
  octets : Octets 16
  deriving DecidableEq

inductive IpAddr
  | v4 (ip : Ipv4Addr)
  | v6 (ip : Ipv6Addr)
  deriving DecidableEq

inductive SocketAddr
  | v4 (ip : Ipv4Addr) (port : UInt16)
  | v6 (ip : Ipv6Addr) (port : UInt16) (flowinfo scopeId : UInt32)
  deriving DecidableEq

def Ipv4Addr.new (a b c d : UInt8) : Ipv4Addr := ⟨⟨[a, b, c, d], rfl⟩⟩

def Ipv4Addr.isLoopback (a : Ipv4Addr) : Bool := a.octets.toList.head? == some 127

def Ipv4Addr.isUnspecified (a : Ipv4Addr) : Bool := a.octets.toList == List.replicate 4 0

def Ipv4Addr.isMulticast (a : Ipv4Addr) : Bool := a.octets.toList.head?.any fun o => 224 ≤ o && o ≤ 239

def Ipv6Addr.isLoopback (a : Ipv6Addr) : Bool := a.octets.toList == List.replicate 15 0 ++ [1]

def Ipv6Addr.isUnspecified (a : Ipv6Addr) : Bool := a.octets.toList == List.replicate 16 0

def Ipv6Addr.isMulticast (a : Ipv6Addr) : Bool := a.octets.toList.head? == some 0xff

def Ipv6Addr.toIpv4Mapped (a : Ipv6Addr) : Option Ipv4Addr :=
  if a.octets.toList.take 12 = List.replicate 10 0 ++ [0xff, 0xff] then
    some ⟨a.octets.toList.drop 12, by simp⟩
  else none

namespace IpAddr

def isIpv4 : IpAddr → Bool
  | v4 _ => true
  | v6 _ => false

def isLoopback : IpAddr → Bool
  | v4 ip => ip.isLoopback
  | v6 ip => ip.isLoopback

def isUnspecified : IpAddr → Bool
  | v4 ip => ip.isUnspecified
  | v6 ip => ip.isUnspecified

def isMulticast : IpAddr → Bool
  | v4 ip => ip.isMulticast
  | v6 ip => ip.isMulticast

end IpAddr

namespace SocketAddr

def ip : SocketAddr → IpAddr
  | v4 ip _ => .v4 ip
  | v6 ip _ _ _ => .v6 ip

def port : SocketAddr → UInt16
  | v4 _ port => port
  | v6 _ port _ _ => port

def new : IpAddr → UInt16 → SocketAddr
  | .v4 ip, port => v4 ip port
  | .v6 ip, port => v6 ip port 0 0

def isIpv4 (a : SocketAddr) : Bool := a.ip.isIpv4

-- an address of the documentation network, for concrete runs
def testNet (d : UInt8) (port : UInt16) : SocketAddr := v4 (.new 192 0 2 d) port

-- `[2001:db8::1]:10000`
def ipv6Source : SocketAddr := v6 ⟨⟨[0x20, 0x01, 0x0d, 0xb8, 0, 0, 0, 0, 0, 0, 0, 0, 0, 0, 0, 1], rfl⟩⟩ 10000 0 0

@[simp] theorem ip_v4 (ip : Ipv4Addr) (port : UInt16) : (v4 ip port).ip = .v4 ip := rfl

@[simp] theorem isIpv4_v4 (ip : Ipv4Addr) (port : UInt16) : (v4 ip port).isIpv4 = true := rfl

@[simp] theorem isIpv4_v6 (ip : Ipv6Addr) (port : UInt16) (f s : UInt32) : (v6 ip port f s).isIpv4 = false := rfl

end SocketAddr

/-! ## The receive boundary -/

/-- Dual-stack sockets may report IPv4 senders as IPv4-mapped IPv6 addresses. -/
def normalizeIpv4MappedSource (source : SocketAddr) : SocketAddr :=
  match source with
  | .v4 _ _ => source
  | .v6 ip port _ _ =>
    match ip.toIpv4Mapped with
    | none => source
    | some ipv4 => .new (.v4 ipv4) port

@[simp] theorem normalize_v4 (ip : Ipv4Addr) (port : UInt16) :
    normalizeIpv4MappedSource (.v4 ip port) = .v4 ip port := rfl

/-! ## Clocks -/

-- `Duration::from_secs`
def secs (s : Nat) : Nat := s * 1000000000

-- `Instant::duration_since` saturates at zero
def durationSince (now earlier : Nat) : Nat := now - earlier

-- `SystemTime::duration_since` fails when `earlier` is later
def systemDurationSince (t earlier : Int) : Option Nat :=
  if earlier ≤ t then some (t - earlier).toNat else none

end P2pTunnler
