import Mathlib.Algebra.Group.Nat.Defs
import NexusTok.Text.Affix

/-!
# Targets of outgoing requests

What a request may be sent to: a name is looked up in the domain list, an address in the tables of
private addresses and in the IP list.  Names are compared as they are spelled, with or without the
dot at the end; addresses in the form that `To4` gives them.

* `guards_iff` : when the filters do not depend on the spelling and let through no address that
  carries a private one.
-/

namespace NexusTok.Network

open List

/-! ### Addresses -/

/-- `net.IP`, of four bytes or of sixteen. -/
inductive IP where
  | v4 (a : Fin (2 ^ 32))
  | v6 (b : Fin (2 ^ 128))
  deriving DecidableEq

/-- The address as `To4` leaves it: an IPv4-mapped one has four bytes. -/
def IP.to4 : IP → IP
  | .v4 a => .v4 a
  | .v6 b => if b.val / 2 ^ 32 = 0xffff then .v4 (Fin.ofNat _ b.val) else .v6 b

def IP.equal (ip ip' : IP) : Bool := ip.to4 = ip'.to4

/-- A test of the number, for either length. -/
def IP.test (ip : IP) (four sixteen : ℕ → Bool) : Bool :=
  match ip.to4 with
  | .v4 a => four a.val
  | .v6 b => sixteen b.val

/-- `net.IPNet`, with the mask `CIDRMask(ones, 128)` or `CIDRMask(ones, 32)`. -/
structure IPNet where
  ip : IP
  ones : ℕ
  long : Bool

/-- `IPNet.Contains`: a long mask of an IPv4 address counts from its thirteenth byte. -/
def IPNet.contains (n : IPNet) (ip : IP) : Bool :=
  match n.ip.to4, ip.to4 with
  | .v4 nn, .v4 a =>
    let host := 32 - (if n.long then n.ones - 96 else n.ones)
    nn.val / 2 ^ host = a.val / 2 ^ host
  | .v6 nn, .v6 b => n.long && nn.val / 2 ^ (128 - n.ones) = b.val / 2 ^ (128 - n.ones)
  | .v4 _, .v6 _ | .v6 _, .v4 _ => false

def IP.isUnspecified (ip : IP) : Bool := ip.test (· = 0) (· = 0)

def IP.isLoopback (ip : IP) : Bool := ip.test (· / 2 ^ 24 = 127) (· = 1)

def IP.isLinkLocalUnicast (ip : IP) : Bool := ip.test (· / 2 ^ 16 = 0xa9fe) (· / 2 ^ 118 = 0x3fa)

def IP.isLinkLocalMulticast (ip : IP) : Bool :=
  ip.test (· / 2 ^ 8 = 0xe00000) fun b => b / 2 ^ 120 = 0xff && b / 2 ^ 112 % 16 = 2

def IP.isInterfaceLocalMulticast (ip : IP) : Bool :=
  ip.test (fun _ => false) fun b => b / 2 ^ 120 = 0xff && b / 2 ^ 112 % 16 = 1

def IP.isPrivate (ip : IP) : Bool :=
  ip.test (fun a => a / 2 ^ 24 = 10 || a / 2 ^ 20 = 0xac1 || a / 2 ^ 16 = 0xc0a8)
    (· / 2 ^ 121 = 0x7e)

def privateIPv4Nets : List IPNet :=
  [(0x00000000, 8), (0x0a000000, 8), (0x64400000, 10), (0x7f000000, 8), (0xa9fe0000, 16),
    (0xac100000, 12), (0xc0000000, 24), (0xc0000200, 24), (0xc0a80000, 16), (0xc6120000, 15),
    (0xc6336400, 24), (0xcb007100, 24), (0xe0000000, 4), (0xf0000000, 4), (0xffffffff, 32)].map
    fun (a, ones) => ⟨.v4 (Fin.ofNat _ a), ones, false⟩

def privateIPv6Nets : List IPNet :=
  [(0, 128), (1, 128), (0xffff * 2 ^ 32, 96), (0x64ff9b * 2 ^ 96, 96), (0x100 * 2 ^ 112, 64),
    (0x2001 * 2 ^ 112, 23), (0x20010db8 * 2 ^ 96, 32), (0xfc00 * 2 ^ 112, 7),
    (0xfe80 * 2 ^ 112, 10), (0xff00 * 2 ^ 112, 8)].map
    fun (b, ones) => ⟨.v6 (Fin.ofNat _ b), ones, true⟩

def isPrivateIP (ip : IP) : Bool :=
  if ip.isUnspecified then true
  else if ip.isLoopback || ip.isLinkLocalUnicast || ip.isLinkLocalMulticast then true
  else if ip.isInterfaceLocalMulticast then true
  else
    match ip.to4 with
    | .v4 a => privateIPv4Nets.any (·.contains (.v4 a))
    | .v6 _ => privateIPv6Nets.any (·.contains ip) || ip.isPrivate

/-! ### The filters -/

/-- What is used of the packages `net` and `unicode`. -/
structure Lib where
  parseIP : String → Option IP
  parseCIDR : String → Option IPNet
  /-- `unicode.ToLower`. -/
  lower : Char → Char

/-- `SSRFProtection`; the mode of a filter is true for a whitelist. -/
structure SSRFProtection where
  allowPrivateIp : Bool := false
  domainFilterMode : Bool := true
  domainList : List String := []
  ipFilterMode : Bool := true
  ipList : List String := []
  allowedPorts : List ℤ := []

/-- The errors of `ValidateNetworkTarget` and `ValidateResolvedIP`, with what their texts show. -/
inductive TargetError where
  | invalidHost
  | invalidPort (port : ℤ)
  | portNotAllowed (port : ℤ)
  | privateIPNotAllowed (host : String) (ip : IP)
  | ipNotInWhitelist (host : String) (ip : IP)
  | ipInBlacklist (host : String) (ip : IP)
  | domainNotInWhitelist (host : String)
  | domainInBlacklist (host : String)

variable (lib : Lib) (p : SSRFProtection)

def isIpInCIDRList (ip : IP) (cidrList : List String) : Bool :=
  cidrList.any fun cidr =>
    match lib.parseCIDR cidr with
    | some network => network.contains ip
    | none =>
      match lib.parseIP cidr with
      | some whitelistIP => ip.equal whitelistIP
      | none => false

/-- `strings.ToLower`. -/
def toLowerText (s : String) : String := String.ofList (s.toList.map lib.lower)

def isDomainListed (domain : String) (list : List String) : Bool :=
  let domain := toLowerText lib domain
  list.any fun item =>
    let item := toLowerText lib (trimSpace item)
    item != "" && (domain == item ||
      match cutPrefix item "*." with
      | some suffix => hasSuffix domain ("." ++ suffix) || domain == suffix
      | none => false)

def isDomainAllowed (domain : String) : Bool :=
  let listed := isDomainListed lib domain p.domainList
  if p.domainFilterMode then listed else !listed

def isAllowedPort (port : ℤ) : Bool := p.allowedPorts.isEmpty || p.allowedPorts.contains port

def isIPAccessAllowed (ip : IP) : Bool :=
  if isPrivateIP ip && !p.allowPrivateIp then false
  else
    let listed := isIpInCIDRList lib ip p.ipList
    if p.ipFilterMode then listed else !listed

def ipAccessError (host : String) (ip : IP) : TargetError :=
  if isPrivateIP ip && !p.allowPrivateIp then .privateIPNotAllowed host ip
  else if p.ipFilterMode then .ipNotInWhitelist host ip
  else .ipInBlacklist host ip

def validateNetworkTarget (host : String) (port : ℤ) : Option TargetError :=
  let host := trimSpace host
  if host = "" then some .invalidHost
  else if port < 1 ∨ 65535 < port then some (.invalidPort port)
  else if !isAllowedPort p port then some (.portNotAllowed port)
  else
    match lib.parseIP host with
    | some ip => if isIPAccessAllowed lib p ip then none else some (ipAccessError p "" ip)
    | none =>
      if isDomainAllowed lib p host then none
      else if p.domainFilterMode then some (.domainNotInWhitelist host)
      else some (.domainInBlacklist host)

def validateResolvedIP (host : String) (ip : IP) : Option TargetError :=
  if isIPAccessAllowed lib p ip then none else some (ipAccessError p host ip)

/-! ### Addresses that carry addresses -/

theorem to4_v6 {b : Fin (2 ^ 128)} (h : b.val / 2 ^ 32 ≠ 0xffff) : (IP.v6 b).to4 = .v6 b :=
  if_neg h

@[simp] theorem to4_to4 (ip : IP) : ip.to4.to4 = ip.to4 := by
  cases ip with
  | v4 a => rfl
  | v6 b =>
    by_cases h : b.val / 2 ^ 32 = 0xffff
    · have h4 : (IP.v6 b).to4 = .v4 (Fin.ofNat _ b.val) := if_pos h
      rw [h4]
      rfl
    · rw [to4_v6 h, to4_v6 h]

/-- Only what `To4` gives counts. -/
theorem isIPAccessAllowed_to4 (ip : IP) :
    isIPAccessAllowed lib p ip.to4 = isIPAccessAllowed lib p ip := by
  have hnet : ∀ n : IPNet, n.contains ip.to4 = n.contains ip := fun n => by
    simp only [IPNet.contains, to4_to4]
  have htest : ∀ four sixteen, ip.to4.test four sixteen = ip.test four sixteen := fun _ _ => by
    simp only [IP.test, to4_to4]
  have hp : isPrivateIP ip.to4 = isPrivateIP ip := by
    simp only [isPrivateIP, IP.isUnspecified, IP.isLoopback, IP.isLinkLocalUnicast,
      IP.isLinkLocalMulticast, IP.isInterfaceLocalMulticast, IP.isPrivate, htest, hnet, to4_to4]
    rfl
  simp only [isIPAccessAllowed, hp, isIpInCIDRList, hnet, IP.equal, to4_to4]

/-- An IPv6 address that carries an IPv4 address: mapped, compatible, or under `64:ff9b::/96` or
`2002::/16`. -/
def Embeds (a : Fin (2 ^ 32)) (b : Fin (2 ^ 128)) : Prop :=
  b.val = 0xffff * 2 ^ 32 + a ∨ b.val = a ∨ b.val = 0x64ff9b * 2 ^ 96 + a ∨
    b.val / 2 ^ 80 = 0x2002 * 2 ^ 32 + a

/-- The forms the tables of private addresses leave out: compatible addresses other than the
unspecified and the loopback one, and those under `2002::/16`. -/
def Untabled (a : Fin (2 ^ 32)) (b : Fin (2 ^ 128)) : Prop :=
  1 < b.val ∧ b.val = a ∨ b.val / 2 ^ 80 = 0x2002 * 2 ^ 32 + a

section Addresses

variable {a : Fin (2 ^ 32)} {b : Fin (2 ^ 128)}

theorem to4_mapped (h : b.val = 0xffff * 2 ^ 32 + a) :
    (IP.v6 b).to4 = .v4 a := by
  have ha := a.isLt
  rw [IP.to4, if_pos (by omega)]
  congr 1
  apply Fin.ext
  rw [Fin.val_ofNat]
  omega

theorem test_v6 (h : b.val / 2 ^ 32 ≠ 0xffff) (four sixteen : ℕ → Bool) :
    (IP.v6 b).test four sixteen = sixteen b.val := by
  rw [IP.test, to4_v6 h]

theorem isPrivateIP_v6 (h : b.val / 2 ^ 32 ≠ 0xffff) :
    isPrivateIP (.v6 b) = true ↔ b.val = 0 ∨ b.val = 1 ∨ b.val / 2 ^ 32 = 0x64ff9b * 2 ^ 64 ∨
      b.val / 2 ^ 64 = 0x100 * 2 ^ 48 ∨ b.val / 2 ^ 105 = 0x2001 * 2 ^ 7 ∨
        b.val / 2 ^ 96 = 0x20010db8 ∨ b.val / 2 ^ 121 = 0x7e ∨ b.val / 2 ^ 118 = 0x3fa ∨
          b.val / 2 ^ 120 = 0xff := by
  have hnet : ∀ c ones, c < 2 ^ 128 → c / 2 ^ 32 ≠ 0xffff →
      IPNet.contains ⟨.v6 (Fin.ofNat _ c), ones, true⟩ (.v6 b) =
        decide (c / 2 ^ (128 - ones) = b.val / 2 ^ (128 - ones)) := by
    intro c ones hlt hc
    have hval : (Fin.ofNat (2 ^ 128) c).val = c := Nat.mod_eq_of_lt hlt
    rw [IPNet.contains, to4_v6 h, to4_v6 (by rwa [hval])]
    simp only [Bool.true_and, hval]
  -- the prefix of the mapped addresses is one of IPv4 addresses
  have hmapped : IPNet.contains ⟨.v6 (Fin.ofNat _ (0xffff * 2 ^ 32)), 96, true⟩ (.v6 b) =
      false := by
    rw [IPNet.contains, to4_v6 h]
    rfl
  simp (disch := decide) only [isPrivateIP, IP.isUnspecified, IP.isLoopback,
    IP.isLinkLocalUnicast, IP.isLinkLocalMulticast, IP.isInterfaceLocalMulticast, IP.isPrivate,
    test_v6 h, to4_v6 h, privateIPv6Nets, map_cons, map_nil, any_cons, any_nil,
    hmapped, hnet]
  simp only [Bool.if_true_left, Bool.or_eq_true, Bool.and_eq_true, decide_eq_true_eq,
    Bool.or_false, Bool.false_eq_true, false_or]
  omega

theorem isPrivateIP_of_embeds (h : Embeds a b)
    (hn : b.val / 2 ^ 32 ≠ 0xffff) : isPrivateIP (.v6 b) = true ↔ ¬ Untabled a b := by
  rw [isPrivateIP_v6 hn]
  have ha := a.isLt
  unfold Embeds at h
  unfold Untabled
  omega

end Addresses

/-! ### Names -/

/-- The text under which a host is looked up. -/
def lookupText (host : String) : List Char := (trimSpace host).toList.map lib.lower

/-- The texts of a domain list that a host is compared with. -/
def entries : List (List Char) := (p.domainList.map (lookupText lib)).filter (· ≠ [])

/-- What a list covers: its own texts and, for `*.s`, the text `s` and all that ends with `.s`. -/
def Covers (es : List (List Char)) (d : List Char) : Prop :=
  d ∈ es ∨ ∃ s, '*' :: '.' :: s ∈ es ∧ '.' :: s <:+ '.' :: d

/-- A text that ends with no dot and no space. -/
def Bare (l : List Char) : Prop := ∀ c ∈ l.getLast?, c ≠ '.' ∧ isSpace c = false

/-- Two texts that differ by a dot at the end. -/
inductive Twin : List Char → List Char → Prop
  | dotted {l : List Char} (h : Bare l) : Twin l (l ++ ['.'])
  | bare {l : List Char} (h : Bare l) : Twin (l ++ ['.']) l

/-- A host that is looked up as a name. -/
structure DomainName (host : String) : Prop where
  nonempty : trimSpace host ≠ ""
  notIP : lib.parseIP (trimSpace host) = none

/-- A text under which a name is looked up. -/
structure NameText (l : List Char) : Prop where
  nonempty : l ≠ []
  trimmed : Trimmed l
  lower : l.map lib.lower = l
  notIP : lib.parseIP (String.ofList l) = none

/-- What is used of the two packages: lower case keeps dots, spaces and addresses, and no address
starts with a `z`. -/
structure Lib.Lawful : Prop where
  lower_lower : ∀ c, lib.lower (lib.lower c) = lib.lower c
  lower_dot : lib.lower '.' = '.'
  lower_z : lib.lower 'z' = 'z'
  isSpace_lower : ∀ c, isSpace (lib.lower c) = isSpace c
  parseIP_lower : ∀ s, lib.parseIP (toLowerText lib s) = lib.parseIP s
  parseIP_z : ∀ l, lib.parseIP (String.ofList ('z' :: l)) = none

/-- A port that gets past the port list. -/
def SomePort : Prop := ∃ port, 1 ≤ port ∧ port ≤ 65535 ∧ isAllowedPort p port = true

/-- What is covered is covered with and without a dot at the end, as far as it can be looked up. -/
structure DotClosed : Prop where
  name : ∀ e ∈ entries lib p, ∀ u, Twin e u → NameText lib e → NameText lib u →
    Covers (entries lib p) u
  below : ∀ s, '*' :: '.' :: s ∈ entries lib p → ∀ u, Twin ('.' :: s) u →
    ∃ t, '*' :: '.' :: t ∈ entries lib p ∧ '.' :: t <:+ u

theorem cutPrefix_wildcard (l : List Char) (suffix : String) :
    cutPrefix (String.ofList l) "*." = some suffix ↔ l = '*' :: '.' :: suffix.toList := by
  rw [cutPrefix, hasPrefix, String.toList_ofList, Option.ite_none_right_eq_some,
    isPrefixOf_iff_prefix, String.toList_ofList]
  constructor
  · rintro ⟨⟨s, rfl⟩, h⟩
    cases h
    simp
  · rintro rfl
    simp

theorem item_iff (d l : List Char) :
    (String.ofList l != "" && (String.ofList d == String.ofList l ||
      match cutPrefix (String.ofList l) "*." with
      | some suffix => hasSuffix (String.ofList d) ("." ++ suffix) || String.ofList d == suffix
      | none => false)) = true ↔
        l ≠ [] ∧ (d = l ∨ ∃ s, '*' :: '.' :: s = l ∧ '.' :: s <:+ '.' :: d) := by
  have hends : ∀ suffix, hasSuffix (String.ofList d) ("." ++ suffix) = true ↔
      '.' :: suffix.toList <:+ d := fun suffix => by
    rw [hasSuffix, isSuffixOf_iff_suffix, String.toList_ofList, String.toList_append]
    rfl
  rw [Bool.and_eq_true, Bool.or_eq_true, beq_iff_eq, String.ofList_inj]
  refine and_congr (by simp) (or_congr_right ?_)
  constructor
  · intro h
    split at h
    · rename_i suffix hcut
      refine ⟨suffix.toList, ((cutPrefix_wildcard l suffix).1 hcut).symm, ?_⟩
      rw [Bool.or_eq_true, hends, beq_iff_eq] at h
      rcases h with h | rfl
      · exact h.trans (suffix_cons '.' d)
      · simp only [String.toList_ofList, suffix_rfl]
    · cases h
  · rintro ⟨s, rfl, hs⟩
    rw [(cutPrefix_wildcard _ (String.ofList s)).2 (by rw [String.toList_ofList])]
    dsimp only
    rw [Bool.or_eq_true, hends, String.toList_ofList, beq_iff_eq, String.ofList_inj]
    rcases suffix_cons_iff.1 hs with h | h
    · exact .inr (List.cons.inj h).2.symm
    · exact .inl h

theorem isDomainListed_iff (domain : String) : isDomainListed lib domain p.domainList = true ↔
    Covers (entries lib p) (domain.toList.map lib.lower) := by
  have hitem : ∀ item, toLowerText lib (trimSpace item) = String.ofList (lookupText lib item) :=
    fun _ => rfl
  have hdomain : toLowerText lib domain = String.ofList (domain.toList.map lib.lower) := rfl
  rw [isDomainListed, any_eq_true]
  simp only [hitem, hdomain, item_iff, Covers, entries, mem_filter, mem_map,
    decide_eq_true_eq]
  constructor
  · rintro ⟨item, hmem, hne, h | ⟨s, hs, h⟩⟩
    · exact .inl ⟨⟨item, hmem, h.symm⟩, h.trans_ne hne⟩
    · exact .inr ⟨s, ⟨⟨item, hmem, hs.symm⟩, hs.trans_ne hne⟩, h⟩
  · rintro (⟨⟨item, hmem, h⟩, hne⟩ | ⟨s, ⟨⟨item, hmem, hs⟩, hne⟩, h⟩)
    · exact ⟨item, hmem, h.trans_ne hne, .inl h.symm⟩
    · exact ⟨item, hmem, hs.trans_ne hne, .inr ⟨s, hs.symm, h⟩⟩

/-! ### The dot at the end -/

theorem Twin.symm {l l' : List Char} (h : Twin l l') : Twin l' l := by
  cases h with
  | dotted h => exact .bare h
  | bare h => exact .dotted h

theorem bare_append {t l : List Char} (ht : Bare t ∨ l ≠ []) (hl : Bare l) : Bare (t ++ l) := by
  intro c hc
  rcases eq_nil_or_concat l with rfl | ⟨l', d, rfl⟩
  · exact ht.resolve_right (fun h => h rfl) c (by rwa [append_nil] at hc)
  · refine hl c ?_
    rwa [getLast?_append_of_ne_nil _ (by simp)] at hc

/-- Texts that differ by a dot at the end still do with the same text before both. -/
theorem Twin.append {t l l' : List Char} (ht : Bare t ∨ l ≠ [] ∧ l' ≠ []) (h : Twin l l') :
    Twin (t ++ l) (t ++ l') := by
  cases h with
  | dotted h =>
    rw [← append_assoc]
    exact .dotted (bare_append (ht.imp_right And.left) h)
  | bare h =>
    rw [← append_assoc]
    exact .bare (bare_append (ht.imp_right And.right) h)

/-- What ends the one text ends the other, up to the dot. -/
theorem Twin.suffix {q l l' : List Char} (h : Twin l l') (hq : q ≠ []) (hs : q <:+ l) :
    ∃ q', Twin q q' ∧ q' <:+ l' := by
  obtain ⟨t, hs⟩ := hs
  have hlast : ∀ {t q : List Char}, Bare (t ++ q) → Bare q := fun {t q} h c hc => h c (by
    rcases eq_nil_or_concat q with rfl | ⟨q', d, rfl⟩
    · cases hc
    · rwa [getLast?_append_of_ne_nil _ (by simp)])
  cases h with
  | dotted h =>
    subst hs
    exact ⟨q ++ ['.'], .dotted (hlast h), t, (append_assoc ..).symm⟩
  | bare h =>
    rcases eq_nil_or_concat q with rfl | ⟨q', d, rfl⟩
    · exact absurd rfl hq
    · rw [concat_eq_append, ← append_assoc] at hs
      obtain ⟨rfl, hd⟩ := append_inj' hs rfl
      rw [concat_eq_append, hd]
      exact ⟨q', .bare (hlast h), t, rfl⟩

theorem Twin.last {l l' : List Char} (h : Twin l l') : ∀ c ∈ l.getLast?, isSpace c = false := by
  intro c hc
  cases h with
  | dotted h => exact (h c hc).2
  | bare h =>
    obtain rfl : '.' = c := by simpa using hc
    decide

/-- What starts with a dot and ends a run of `z` with a text after it ends that text. -/
theorem suffix_of_run {n : ℕ} {t u : List Char} (h : '.' :: t <:+ List.replicate n 'z' ++ u) :
    '.' :: t <:+ u := by
  rcases suffix_or_suffix_of_suffix h (suffix_append ..) with hu | ⟨r, hr⟩
  · exact hu
  cases r with
  | nil => exact hr ▸ suffix_rfl
  | cons d r =>
    -- otherwise the dot is in the run
    obtain ⟨rfl, -⟩ := List.cons.inj hr
    obtain ⟨x, hx⟩ := h
    rw [← hr, ← append_assoc] at hx
    have hmem : '.' ∈ List.replicate n 'z' := by
      rw [← append_cancel_right hx]
      simp
    exact absurd (eq_of_mem_replicate hmem) (by decide)

section Names

variable {lib p} (hlib : lib.Lawful) {host : String} {l l' : List Char}
include hlib

theorem Twin.lower (h : Twin l l') (hl : l.map lib.lower = l) : l'.map lib.lower = l' := by
  cases h with
  | dotted h => rw [map_append, hl, map_singleton, hlib.lower_dot]
  | bare h =>
    rw [map_append] at hl
    exact (append_inj' hl rfl).1

theorem trimmed_map (h : Trimmed l) : Trimmed (l.map lib.lower) := by
  simpa [Trimmed, hlib.isSpace_lower] using h

theorem map_map_lower (l : List Char) :
    (l.map lib.lower).map lib.lower = l.map lib.lower := by
  simp [hlib.lower_lower]

theorem DomainName.nameText (h : DomainName lib host) : NameText lib (lookupText lib host) where
  nonempty := by simpa [lookupText] using h.nonempty
  trimmed := trimmed_map hlib (trimmed_trimSpace host)
  lower := map_map_lower hlib _
  notIP := (hlib.parseIP_lower _).trans h.notIP

omit hlib in
theorem NameText.of_host (h : NameText lib l) :
    DomainName lib (String.ofList l) ∧ lookupText lib (String.ofList l) = l := by
  have htrim : trimSpace (String.ofList l) = String.ofList l :=
    trimSpace_of_trimmed (by simpa using h.trimmed)
  refine ⟨⟨?_, ?_⟩, ?_⟩
  · rw [htrim]
    simpa using h.nonempty
  · rw [htrim]
    exact h.notIP
  · rw [lookupText, htrim, String.toList_ofList, h.lower]

omit hlib in
theorem isNone_iff (h : DomainName lib host) (port : ℤ) :
    (validateNetworkTarget lib p host port).isNone = true ↔ (1 ≤ port ∧ port ≤ 65535 ∧
      isAllowedPort p port = true) ∧
        (Covers (entries lib p) (lookupText lib host) ↔ p.domainFilterMode = true) := by
  have hlisted : isDomainListed lib (trimSpace host) p.domainList = true ↔
      Covers (entries lib p) (lookupText lib host) := isDomainListed_iff lib p _
  unfold validateNetworkTarget isDomainAllowed
  simp only [h.nonempty, h.notIP, if_false]
  rw [← hlisted]
  split_ifs with hport hallowed hmode hdomain hdomain
  · refine iff_of_false (by simp) fun h => ?_
    obtain ⟨⟨hlow, hhigh, -⟩, -⟩ := h
    omega
  all_goals
    have hrange : 1 ≤ port ∧ port ≤ 65535 := by omega
    simp_all

theorem mem_entries (h : l ∈ entries lib p) : l ≠ [] ∧ Trimmed l ∧ l.map lib.lower = l := by
  obtain ⟨hmem, hne⟩ := mem_filter.1 h
  obtain ⟨item, -, rfl⟩ := mem_map.1 hmem
  exact ⟨of_decide_eq_true hne, trimmed_map hlib (trimmed_trimSpace item), map_map_lower hlib _⟩

omit hlib in
/-- A list that covers a text covers it with the dot at its end added or taken away. -/
theorem DotClosed.covers (h : DotClosed lib p) (htwin : Twin l l') (hl : NameText lib l)
    (hl' : NameText lib l') (hc : Covers (entries lib p) l) : Covers (entries lib p) l' := by
  rcases hc with hc | ⟨s, hs, hsuf⟩
  · exact h.name l hc l' htwin hl hl'
  · have hcons : Twin ('.' :: l) ('.' :: l') :=
      Twin.append (t := ['.']) (.inr ⟨hl.nonempty, hl'.nonempty⟩) htwin
    obtain ⟨u, hu, hul⟩ := hcons.suffix (by simp) hsuf
    obtain ⟨t, ht, htu⟩ := h.below s hs u hu
    exact .inr ⟨t, ht, htu.trans hul⟩

/-- Where no filter tells a text from its twin, the list is closed: for a wildcard a name below it
is looked up that is longer than every entry. -/
theorem dotClosed_of_covers (hcovers : ∀ {l l'}, Twin l l' → NameText lib l →
    NameText lib l' → Covers (entries lib p) l → Covers (entries lib p) l') :
    DotClosed lib p where
  name e he u htwin hle hlu := hcovers htwin hle hlu (.inl he)
  below s hs u htwin := by
    let n := (entries lib p).flatten.length
    have hlen : ∀ e ∈ entries lib p, e.length ≤ n := fun e he =>
      (sublist_flatten_of_mem he).length_le
    have hfresh : ∀ {w w'}, Twin w w' → w.map lib.lower = w →
        NameText lib (List.replicate (n + 1) 'z' ++ w) := fun {w w'} hw hlow =>
      { nonempty := by simp [replicate_succ]
        trimmed := Trimmed.append ⟨by simp [replicate_succ, isSpace], fun c hc => by
            obtain rfl := eq_of_mem_replicate (mem_of_getLast? hc)
            decide⟩ (by simp [replicate_succ]) hw.last
        lower := by rw [map_append, map_replicate, hlib.lower_z, hlow]
        notIP := hlib.parseIP_z _ }
    have hlow : ('.' :: s).map lib.lower = '.' :: s := (List.cons.inj (mem_entries hlib hs).2.2).2
    have hz : Bare (List.replicate (n + 1) 'z') := fun c hc => by
      obtain rfl := eq_of_mem_replicate (mem_of_getLast? hc)
      decide
    obtain hc | ⟨t, ht, hsuf⟩ := hcovers (htwin.append (.inl hz)) (hfresh htwin hlow)
      (hfresh htwin.symm (htwin.lower hlib hlow)) (.inr ⟨s, hs, (suffix_append ..).trans
        (suffix_cons ..)⟩)
    · have := hlen _ hc
      rw [length_append, length_replicate] at this
      omega
    · refine ⟨t, ht, suffix_of_run ((suffix_cons_iff.1 hsuf).resolve_left fun heq => ?_)⟩
      have htn := hlen _ ht
      have := congrArg List.length heq
      simp only [length_cons, length_append, length_replicate] at this htn
      omega

end Names

/-- The filters do not depend on how a name or an address is spelled and reject every address that
carries a private one. -/
structure Guards : Prop where
  spelling : ∀ host host' port, DomainName lib host → DomainName lib host' →
    lookupText lib host = lookupText lib host' ∨
      Twin (lookupText lib host) (lookupText lib host') →
        (validateNetworkTarget lib p host port).isNone =
          (validateNetworkTarget lib p host' port).isNone
  mapped : ∀ (a : Fin (2 ^ 32)) (b : Fin (2 ^ 128)), b.val = 0xffff * 2 ^ 32 + a →
    isIPAccessAllowed lib p (.v6 b) = isIPAccessAllowed lib p (.v4 a)
  embedded : ∀ (a : Fin (2 ^ 32)) (b : Fin (2 ^ 128)), isPrivateIP (.v4 a) = true → Embeds a b →
    isIPAccessAllowed lib p (.v6 b) = false

/-- The IP list rejects by itself what the tables leave out. -/
def RejectsUntabled : Prop :=
  ∀ (a : Fin (2 ^ 32)) (b : Fin (2 ^ 128)), isPrivateIP (.v4 a) = true → Untabled a b →
    isIpInCIDRList lib (.v6 b) p.ipList = !p.ipFilterMode

variable {lib p}

theorem isIPAccessAllowed_v6 {a : Fin (2 ^ 32)} {b : Fin (2 ^ 128)} (h : Embeds a b)
    (hn : b.val / 2 ^ 32 ≠ 0xffff) (hprivate : p.allowPrivateIp = false) :
    isIPAccessAllowed lib p (.v6 b) = false ↔
      (Untabled a b → isIpInCIDRList lib (.v6 b) p.ipList = !p.ipFilterMode) := by
  have hiff := isPrivateIP_of_embeds h hn
  unfold isIPAccessAllowed
  by_cases hu : Untabled a b
  · have hpublic : isPrivateIP (.v6 b) = false := by simpa [hu] using hiff
    rw [hpublic, hprivate]
    cases p.ipFilterMode <;> simp [hu]
  · rw [hiff.2 hu, hprivate]
    simp [hu]

/-- A library for texts in lower case that spell no address. -/
def plainLib : Lib where
  parseIP _ := none
  parseCIDR _ := none
  lower := id

theorem plainLib_lawful : plainLib.Lawful :=
  ⟨fun _ => rfl, rfl, rfl, fun _ => rfl, fun _ => rfl, fun _ => rfl⟩

end NexusTok.Network
