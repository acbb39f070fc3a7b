import P2pTunnler.Routes

/-!
# Which gateway is found

The kernel's table as it is written, and which line the program takes. The
program never reads the mask, nor any column after the flags: it takes the
first line that looks like a default route so far.
-/

namespace P2pTunnler

/-! ## The kernel's table -/

-- `%d`
def decimal : Int → List Char
  | .ofNat n => Nat.toDigits 10 n
  | .negSucc n => '-' :: Nat.toDigits 10 (n + 1)

/-- The address as the number the kernel prints on a little-endian host. -/
def Ipv4Addr.hostOrder (ip : Ipv4Addr) : Nat := BigEndian.toNat ip.octets.toList.reverse

structure RouteEntry where
  iface : List Char
  iface_ne_nil : iface ≠ []
  iface_word : ∀ c ∈ iface, isWhitespace c = false
  destination : Ipv4Addr
  gateway : Ipv4Addr
  flags : UInt16
  refCnt : Int
  use : Int
  metric : Int
  mask : Ipv4Addr
  -- MTU, Window, IRTT
  rest : List Int

namespace RouteEntry

def columns (e : RouteEntry) : List (List Char) :=
  [e.iface, Text.hex 8 e.destination.hostOrder, Text.hex 8 e.gateway.hostOrder, Text.hex 4 e.flags.toNat,
    decimal e.refCnt, decimal e.use, decimal e.metric, Text.hex 8 e.mask.hostOrder] ++ e.rest.map decimal

def render (e : RouteEntry) : List Char := ['\t'].intercalate e.columns

/-- A default route through a gateway. -/
def IsDefault (e : RouteEntry) : Prop :=
  e.destination = .new 0 0 0 0 ∧ e.mask = .new 0 0 0 0 ∧ e.flags &&& 0x2 ≠ 0

end RouteEntry

-- the separators are any white space
def IsEntry (e : RouteEntry) (line : List Char) : Prop := splitWhitespace line = e.columns

def IsDefaultLine (line : List Char) : Prop := ∃ e, IsEntry e line ∧ e.IsDefault

/-- `gateway` is that of the first well-formed default route. -/
def FirstDefault (ls : List (List Char)) (gateway : Ipv4Addr) : Prop :=
  ∃ pre line post e, ls = pre ++ line :: post ∧ IsEntry e line ∧ e.IsDefault ∧ e.gateway = gateway ∧
    ∀ l ∈ pre, ¬IsDefaultLine l

theorem isWhitespace_hexDigit {d : Nat} (h : d < 16) : isWhitespace (Text.hexDigit d) = false := by
  revert h d
  decide

theorem isWhitespace_hex {w n : Nat} : ∀ c ∈ Text.hex w n, isWhitespace c = false := by
  induction w with
  | zero => intro c hc; cases hc
  | succ w ih =>
    intro c hc
    rcases List.mem_cons.mp hc with rfl | hc
    · exact isWhitespace_hexDigit (Nat.mod_lt _ (by decide))
    · exact ih c hc

theorem isWhitespace_toDigits {n : Nat} : ∀ c ∈ Nat.toDigits 10 n, isWhitespace c = false := by
  intro c hc
  have hd := Nat.isDigit_of_mem_toDigits (by decide) (by decide) hc
  have hr : 48 ≤ c.toNat ∧ c.toNat ≤ 57 := by
    rw [Char.isDigit, Bool.and_eq_true, decide_eq_true_iff, decide_eq_true_iff] at hd
    exact hd
  simp only [isWhitespace, Bool.or_eq_false_iff, Bool.and_eq_false_iff, decide_eq_false_iff_not, beq_eq_false_iff_ne]
  omega

theorem decimal_word (n : Int) : decimal n ≠ [] ∧ ∀ c ∈ decimal n, isWhitespace c = false := by
  cases n with
  | ofNat n => exact ⟨Nat.toDigits_ne_nil, isWhitespace_toDigits⟩
  | negSucc n =>
    refine ⟨by simp [decimal], fun c hc => ?_⟩
    rcases List.mem_cons.mp hc with rfl | hc
    · decide
    · exact isWhitespace_toDigits c hc

theorem hex_word {w : Nat} (h : 0 < w) (n : Nat) :
    Text.hex w n ≠ [] ∧ ∀ c ∈ Text.hex w n, isWhitespace c = false := by
  refine ⟨fun hn => ?_, isWhitespace_hex⟩
  have hl := Text.length_hex w n
  rw [hn] at hl
  exact h.ne hl

theorem columns_word (e : RouteEntry) : ∀ w ∈ e.columns, w ≠ [] ∧ ∀ c ∈ w, isWhitespace c = false := by
  intro w hw
  simp only [RouteEntry.columns, List.mem_append, List.mem_cons, List.not_mem_nil, or_false, List.mem_map] at hw
  rcases hw with (rfl | rfl | rfl | rfl | rfl | rfl | rfl | rfl) | ⟨n, -, rfl⟩
  · exact ⟨e.iface_ne_nil, e.iface_word⟩
  · exact hex_word (by decide) _
  · exact hex_word (by decide) _
  · exact hex_word (by decide) _
  · exact decimal_word _
  · exact decimal_word _
  · exact decimal_word _
  · exact hex_word (by decide) _
  · exact decimal_word _

/-- The kernel's own layout is one of the layouts of an entry. -/
theorem isEntry_render (e : RouteEntry) : IsEntry e e.render := Text.words_intercalate (by decide) (columns_word e)

theorem newline_not_mem_render (e : RouteEntry) : '\n' ∉ e.render := by
  apply Text.not_mem_intercalate (by decide)
  intro w hw hn
  exact absurd ((columns_word e w hw).2 _ hn) (by decide)

/-! ## The line that is taken -/

/-- What the program sees of a default route: four columns, the second all zeros, the third and the
fourth hexadecimal, with the gateway flag. -/
def LooksDefault (line : List Char) (gateway : Ipv4Addr) : Prop :=
  ∃ iface gw flags rest value bits, splitWhitespace line = iface :: "00000000".toList :: gw :: flags :: rest ∧
    u32FromHex gw = some value ∧ u16FromHex flags = some bits ∧
    bits &&& 0x2 ≠ 0 ∧ gateway = .ofLeBytes value

theorem routeGateway_eq_some {line : List Char} {gateway : Ipv4Addr} :
    routeGateway line = some gateway ↔ LooksDefault line gateway := by
  constructor
  · intro h
    unfold routeGateway at h
    split at h
    · rename_i iface destination gw flags rest hc
      cases hf : u16FromHex flags with
      | none => simp [hf] at h
      | some bits =>
        simp only [hf] at h
        split at h
        · cases h
        · rename_i hn
          obtain ⟨hd, hb⟩ := not_or.mp hn
          cases hg : u32FromHex gw with
          | none => simp [hg] at h
          | some value =>
            simp only [hg, Option.some.injEq] at h
            exact ⟨iface, gw, flags, rest, value, bits, not_not.mp hd ▸ hc, hg, hf, hb, h.symm⟩
    · cases h
  · rintro ⟨iface, gw, flags, rest, value, bits, hc, hg, hf, hb, rfl⟩
    simp [routeGateway, hc, hf, hb, hg]

theorem LooksDefault.unique {line : List Char} {a b : Ipv4Addr} (ha : LooksDefault line a) (hb : LooksDefault line b) :
    a = b :=
  Option.some.inj ((routeGateway_eq_some.mpr ha).symm.trans (routeGateway_eq_some.mpr hb))

theorem ofLeBytes_hostOrder (ip : Ipv4Addr) : Ipv4Addr.ofLeBytes ip.hostOrder = ip := by
  obtain ⟨⟨l, hl⟩⟩ := ip
  have hb := BigEndian.bytes_toNat l.reverse
  rw [List.length_reverse, hl] at hb
  simp [Ipv4Addr.ofLeBytes, Ipv4Addr.hostOrder, hb]

theorem hostOrder_lt (ip : Ipv4Addr) : ip.hostOrder < 2 ^ 32 := by
  have h := BigEndian.toNat_lt ip.octets.toList.reverse
  rw [List.length_reverse, ip.octets.length_toList] at h
  exact h

-- nothing is said of the mask
theorem IsEntry.looksDefault {e : RouteEntry} {line : List Char} (h : IsEntry e line)
    (hdest : e.destination = .new 0 0 0 0) (hflags : e.flags &&& 0x2 ≠ 0) : LooksDefault line e.gateway := by
  refine ⟨e.iface, Text.hex 8 e.gateway.hostOrder, Text.hex 4 e.flags.toNat, e.columns.drop 4, e.gateway.hostOrder,
    e.flags.toNat, ?_, ?_, ?_, ?_, (ofLeBytes_hostOrder _).symm⟩
  · have hz : Text.hex 8 (Ipv4Addr.new 0 0 0 0).hostOrder = "00000000".toList := by decide
    rw [h, RouteEntry.columns, hdest, hz]
    rfl
  · exact Text.fromStrRadix_hex (by decide) (hostOrder_lt _) (hostOrder_lt _)
  · exact Text.fromStrRadix_hex (by decide) e.flags.toNat_lt e.flags.toNat_lt
  · intro hz
    apply hflags
    apply UInt16.toNat_inj.mp
    rw [UInt16.toNat_and]
    exact hz

theorem IsDefaultLine.looksDefault {line : List Char} (h : IsDefaultLine line) :
    ∃ gateway, LooksDefault line gateway := by
  obtain ⟨e, he, hd⟩ := h
  exact ⟨e.gateway, he.looksDefault hd.1 hd.2.2⟩

theorem not_isDefaultLine {ls : List (List Char)} (h : ∀ l ∈ ls, ∀ a, ¬LooksDefault l a) :
    ∀ l ∈ ls, ¬IsDefaultLine l := by
  intro l hl hd
  obtain ⟨a, ha⟩ := hd.looksDefault
  exact h l hl a ha

/-- Lines that contribute nothing hide nothing: the first that does decides. -/
theorem findSome_routeGateway {ls : List (List Char)} {gateway : Ipv4Addr} :
    ls.findSome? routeGateway = some gateway ↔
      ∃ pre line post, ls = pre ++ line :: post ∧ LooksDefault line gateway ∧ ∀ l ∈ pre, ∀ a, ¬LooksDefault l a := by
  rw [List.findSome?_eq_some_iff]
  simp only [routeGateway_eq_some, Option.eq_none_iff_forall_ne_some, ne_eq]

theorem routeGateway_stripCarriageReturn (line : List Char) :
    routeGateway (Text.stripCarriageReturn line) = routeGateway line := by
  have hw : splitWhitespace (Text.stripCarriageReturn line) = splitWhitespace line :=
    Text.words_stripCarriageReturn (by decide) line
  rw [routeGateway, routeGateway, hw]

theorem parseDefaultIpv4Gateway_unlines {header : List Char} {ls : List (List Char)}
    (h : ∀ l ∈ header :: ls, '\n' ∉ l) :
    parseDefaultIpv4Gateway (Text.unlines (header :: ls)) = ls.findSome? routeGateway := by
  rw [parseDefaultIpv4Gateway, Text.lines_unlines h, List.map_cons, List.drop_succ_cons, List.drop_zero,
    List.findSome?_map]
  congr 1
  funext line
  exact routeGateway_stripCarriageReturn line

/-! ## Against the first default route -/

theorem FirstDefault.cons {ls : List (List Char)} {line : List Char} {gateway : Ipv4Addr} (hl : ¬IsDefaultLine line) :
    FirstDefault (line :: ls) gateway ↔ FirstDefault ls gateway := by
  constructor
  · rintro ⟨pre, line', post, e, hs, he, hd, hg, hp⟩
    cases pre with
    | nil =>
      obtain ⟨rfl, rfl⟩ := List.cons.inj hs
      exact absurd ⟨e, he, hd⟩ hl
    | cons x pre =>
      obtain ⟨rfl, rfl⟩ := List.cons.inj hs
      exact ⟨pre, line', post, e, rfl, he, hd, hg, fun l hl => hp l (by simp [hl])⟩
  · rintro ⟨pre, line', post, e, rfl, he, hd, hg, hp⟩
    refine ⟨line :: pre, line', post, e, rfl, he, hd, hg, fun l hl' => ?_⟩
    rcases List.mem_cons.mp hl' with rfl | hl'
    · exact hl
    · exact hp l hl'

theorem FirstDefault.append {pre ls : List (List Char)} {gateway : Ipv4Addr} (hp : ∀ l ∈ pre, ¬IsDefaultLine l) :
    FirstDefault (pre ++ ls) gateway ↔ FirstDefault ls gateway := by
  induction pre with
  | nil => rfl
  | cons line pre ih =>
    rw [List.cons_append, FirstDefault.cons (hp line (by simp)), ih fun l hl => hp l (by simp [hl])]

theorem FirstDefault.head {ls : List (List Char)} {line : List Char} {gateway : Ipv4Addr} (hl : IsDefaultLine line) :
    FirstDefault (line :: ls) gateway ↔ LooksDefault line gateway := by
  constructor
  · rintro ⟨pre, line', post, e, hs, he, hd, rfl, hp⟩
    cases pre with
    | nil =>
      obtain ⟨rfl, rfl⟩ := List.cons.inj hs
      exact he.looksDefault hd.1 hd.2.2
    | cons x pre =>
      obtain ⟨rfl, rfl⟩ := List.cons.inj hs
      exact absurd hl (hp _ (by simp))
  · intro h
    obtain ⟨e, he, hd⟩ := hl
    exact ⟨[], line, ls, e, rfl, he, hd, (he.looksDefault hd.1 hd.2.2).unique h, fun l hl => by cases hl⟩

theorem FirstDefault.unique {ls : List (List Char)} {a b : Ipv4Addr} (ha : FirstDefault ls a) (hb : FirstDefault ls b) :
    a = b := by
  induction ls with
  | nil =>
    obtain ⟨pre, line, post, e, hs, -⟩ := ha
    simp at hs
  | cons line ls ih =>
    by_cases hl : IsDefaultLine line
    · rw [FirstDefault.head hl] at ha hb
      exact ha.unique hb
    · rw [FirstDefault.cons hl] at ha hb
      exact ih ha hb

/-- The gateway found is that of the first default route of the table, and there is none without one. -/
def FindsDefault (header : List Char) (ls : List (List Char)) : Prop :=
  ∀ gateway, parseDefaultIpv4Gateway (Text.unlines (header :: ls)) = some gateway ↔ FirstDefault ls gateway

/-- The first line that looks like a default route has to be one, or to name the same gateway as the
first that is. -/
theorem findsDefault_iff {header : List Char} {ls : List (List Char)} (h : ∀ l ∈ header :: ls, '\n' ∉ l) :
    FindsDefault header ls ↔
      ∀ pre line post gateway, ls = pre ++ line :: post → (∀ l ∈ pre, ∀ a, ¬LooksDefault l a) →
        LooksDefault line gateway → IsDefaultLine line ∨ FirstDefault post gateway := by
  rw [FindsDefault, parseDefaultIpv4Gateway_unlines h]
  constructor
  · rintro hf pre line post gateway rfl hp hl
    have hfirst := (hf gateway).mp (findSome_routeGateway.mpr ⟨pre, line, post, rfl, hl, hp⟩)
    rw [FirstDefault.append (not_isDefaultLine hp)] at hfirst
    by_cases hd : IsDefaultLine line
    · exact .inl hd
    · exact .inr ((FirstDefault.cons hd).mp hfirst)
  · intro hc
    have hsound : ∀ a, ls.findSome? routeGateway = some a → FirstDefault ls a := by
      intro a ha
      obtain ⟨pre, line, post, rfl, hl, hp⟩ := findSome_routeGateway.mp ha
      rw [FirstDefault.append (not_isDefaultLine hp)]
      by_cases hd : IsDefaultLine line
      · exact (FirstDefault.head hd).mpr hl
      · exact (FirstDefault.cons hd).mpr ((hc pre line post a rfl hp hl).resolve_left hd)
    intro gateway
    constructor
    · exact hsound gateway
    · intro hg
      cases hr : ls.findSome? routeGateway with
      | some a => rw [(hsound a hr).unique hg]
      | none =>
        -- the default route itself would have been taken
        obtain ⟨pre, line, post, e, rfl, he, hd, -, -⟩ := hg
        have hn := List.findSome?_eq_none_iff.mp hr line (by simp)
        rw [routeGateway_eq_some.mpr (he.looksDefault hd.1 hd.2.2)] at hn
        cases hn

def homeRoute : RouteEntry where
  iface := "wlan0".toList
  iface_ne_nil := by decide
  iface_word := by simp [isWhitespace]
  destination := .new 0 0 0 0
  gateway := .new 192 168 1 1
  flags := 0x3
  refCnt := 0
  use := 0
  metric := 600
  mask := .new 0 0 0 0
  rest := [0, 0, 0]

-- half of the address space, as a VPN routes it
def vpnRoute : RouteEntry := { homeRoute with
  iface := "tun0".toList
  iface_ne_nil := by decide
  iface_word := by simp [isWhitespace]
  gateway := .new 10 8 0 1
  metric := 0
  mask := .new 128 0 0 0 }

def routeHeader : List Char := "Iface\tDestination\tGateway\tFlags\tRefCnt\tUse\tMetric\tMask\tMTU\tWindow\tIRTT".toList

theorem newline_not_mem_table (es : List RouteEntry) :
    ∀ l ∈ routeHeader :: es.map RouteEntry.render, '\n' ∉ l := by
  rw [List.forall_mem_cons, List.forall_mem_map]
  exact ⟨by decide, fun e _ => newline_not_mem_render e⟩

theorem parseDefaultIpv4Gateway_table {e : RouteEntry} (es : List RouteEntry)
    (hdest : e.destination = .new 0 0 0 0) (hflags : e.flags &&& 0x2 ≠ 0) :
    parseDefaultIpv4Gateway (Text.unlines (routeHeader :: (e :: es).map RouteEntry.render)) = some e.gateway := by
  rw [parseDefaultIpv4Gateway_unlines (newline_not_mem_table (e :: es)), List.map_cons]
  rw [List.findSome?_cons, routeGateway_eq_some.mpr ((isEntry_render e).looksDefault hdest hflags)]

theorem homeRoute_isDefault : homeRoute.IsDefault := ⟨rfl, rfl, by decide⟩

theorem not_isDefaultLine_vpnRoute : ¬IsDefaultLine vpnRoute.render := by
  rintro ⟨e, he, -, hm, -⟩
  have hc : e.columns[7]? = vpnRoute.columns[7]? := congrArg (·[7]?) (he.symm.trans (isEntry_render vpnRoute))
  have hx : some (Text.hex 8 e.mask.hostOrder) = some (Text.hex 8 vpnRoute.mask.hostOrder) := hc
  rw [hm] at hx
  revert hx
  decide

-- its gateway is no number
def brokenLine : List Char := "eth0\t00000000\tgateway\t0003".toList

theorem not_looksDefault_brokenLine : ∀ gateway, ¬LooksDefault brokenLine gateway := by
  intro gateway hl
  have hn : routeGateway brokenLine = none := by decide
  rw [routeGateway_eq_some.mpr hl] at hn
  cases hn

theorem homeRoute_found : FindsDefault routeHeader [brokenLine, homeRoute.render, vpnRoute.render] := by
  have hn : ∀ l ∈ [routeHeader, brokenLine, homeRoute.render, vpnRoute.render], '\n' ∉ l := by
    obtain ⟨hh, ht⟩ := List.forall_mem_cons.mp (newline_not_mem_table [homeRoute, vpnRoute])
    exact List.forall_mem_cons.mpr ⟨hh, List.forall_mem_cons.mpr ⟨by decide, ht⟩⟩
  have hhome : IsDefaultLine homeRoute.render := ⟨homeRoute, isEntry_render homeRoute, homeRoute_isDefault⟩
  apply (findsDefault_iff hn).mpr
  intro pre line post gateway hs hp hl
  rcases pre with _ | ⟨x, _ | ⟨y, pre⟩⟩
  · obtain ⟨rfl, -⟩ := List.cons.inj hs
    exact absurd hl (not_looksDefault_brokenLine gateway)
  · obtain ⟨rfl, -⟩ := List.cons.inj (List.cons.inj hs).2
    exact .inl hhome
  · -- the route of the VPN is not reached
    obtain ⟨rfl, -⟩ := List.cons.inj (List.cons.inj hs).2
    obtain ⟨a, ha⟩ := hhome.looksDefault
    exact absurd ha (hp _ (by simp) a)

theorem vpnRoute_taken :
    parseDefaultIpv4Gateway (Text.unlines [routeHeader, vpnRoute.render, homeRoute.render]) = some (.new 10 8 0 1) ∧
    ¬FindsDefault routeHeader [vpnRoute.render, homeRoute.render] := by
  have hp : parseDefaultIpv4Gateway (Text.unlines [routeHeader, vpnRoute.render, homeRoute.render]) =
      some (.new 10 8 0 1) :=
    parseDefaultIpv4Gateway_table [homeRoute] rfl (by decide)
  refine ⟨hp, fun hf => ?_⟩
  have hhome := (isEntry_render homeRoute).looksDefault rfl homeRoute_isDefault.2.2
  have hfirst := (hf _).mp hp
  rw [FirstDefault.cons not_isDefaultLine_vpnRoute,
    FirstDefault.head ⟨homeRoute, isEntry_render homeRoute, homeRoute_isDefault⟩] at hfirst
  exact absurd (hfirst.unique hhome) (by decide)

end P2pTunnler
