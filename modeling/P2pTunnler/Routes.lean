import P2pTunnler.Net
import P2pTunnler.Lib.BigEndian
import P2pTunnler.Lib.Text

/-!
# The default gateway

`parse_default_ipv4_gateway` of `nat.rs`, over the text of `/proc/net/route`.
-/

namespace P2pTunnler

-- `char::is_whitespace`, the Unicode property White_Space
def isWhitespace (c : Char) : Bool :=
  (0x09 ≤ c.toNat && c.toNat ≤ 0x0d) || c.toNat == 0x20 || c.toNat == 0x85 || c.toNat == 0xa0 || c.toNat == 0x1680 ||
    (0x2000 ≤ c.toNat && c.toNat ≤ 0x200a) || c.toNat == 0x2028 || c.toNat == 0x2029 || c.toNat == 0x202f ||
    c.toNat == 0x205f || c.toNat == 0x3000

def splitWhitespace (line : List Char) : List (List Char) := Text.words isWhitespace line

-- `u16::from_str_radix(text, 16)` and `u32::from_str_radix(text, 16)`
def u16FromHex (text : List Char) : Option Nat := Text.fromStrRadix (2 ^ 16) 16 text

def u32FromHex (text : List Char) : Option Nat := Text.fromStrRadix (2 ^ 32) 16 text

-- `Ipv4Addr::from(value.to_le_bytes())`
def Ipv4Addr.ofLeBytes (value : Nat) : Ipv4Addr := ⟨⟨(BigEndian.bytes 4 value).reverse, by simp⟩⟩

/-- What one line of the table contributes. -/
def routeGateway (line : List Char) : Option Ipv4Addr :=
  match splitWhitespace line with
  | _interface :: destination :: gateway :: flags :: _ =>
    match u16FromHex flags with
    | none => none
    | some flags =>
      if destination ≠ "00000000".toList ∨ flags &&& 0x2 = 0 then none
      else
        match u32FromHex gateway with
        | none => none
        | some gateway => some (.ofLeBytes gateway)
  | _ => none

def parseDefaultIpv4Gateway (routeTable : List Char) : Option Ipv4Addr :=
  ((Text.lines routeTable).drop 1).findSome? routeGateway

end P2pTunnler
