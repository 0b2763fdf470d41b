import TokenEra.Lib.Text

/-!
# Addresses

`net.IP`, `net.ParseIP`, `net.ParseCIDR` and the predicates of `net.IP` that `isPrivateIP` uses, and
`isPrivateIP` itself. An address is its 16-byte form: the 4-byte form of an IPv4 address and its
IPv4-mapped form are the same to all of them (`To4` comes first).
-/

namespace TokenEra.Fetch

open Lib

abbrev IP := BitVec 128

/-- `netip.AddrFrom4`, as 16 bytes. -/
def IP.ofV4 (a : BitVec 32) : IP := 0xffff#96 ++ a

/-- `To4`. -/
def IP.to4 (ip : IP) : Option (BitVec 32) := if ip.extractLsb' 32 96 = 0xffff#96 then some
    (ip.extractLsb' 0 32) else none

def byte {w : Nat} (n : Nat) (a : BitVec w) : Nat := (a.extractLsb' (w - 8 * (n + 1)) 8).toNat

def v4 (a b c d : BitVec 8) : BitVec 32 := a ++ b ++ c ++ d

/-! ### Parsing -/

def digit? (c : Char) : Option Nat := if c.isDigit then some (c.toNat - '0'.toNat) else none

def hexDigit? (c : Char) : Option Nat :=
  if c.isDigit then some (c.toNat - '0'.toNat)
  else if 'a' ≤ c ∧ c ≤ 'f' then some (c.toNat - 'a'.toNat + 10)
  else if 'A' ≤ c ∧ c ≤ 'F' then some (c.toNat - 'A'.toNat + 10)
  else none

def decimal? (l : List Char) : Option Nat :=
  if l = [] then none else l.foldlM (fun n c => (digit? c).map fun d => 10 * n + d) 0

/-- A field of an IPv4 address: at most 255, without leading zeros. -/
def octet? (l : List Char) : Option (BitVec 8) :=
  match decimal? l with
  | some n => if n ≤ 255 ∧ (l.length = 1 ∨ l.head? ≠ some '0') then some (BitVec.ofNat 8 n) else none
  | none => none

def parseIPv4 (l : List Char) : Option (BitVec 32) :=
  match (l.splitOn '.').mapM octet? with
  | some [a, b, c, d] => some (v4 a b c d)
  | _ => none

/-- A field of an IPv6 address: one to four hexadecimal digits. -/
def field? (l : List Char) : Option (BitVec 16) :=
  if l = [] ∨ 4 < l.length then none
  else (l.foldlM (fun n c => (hexDigit? c).map fun d => 16 * n + d) 0).map (BitVec.ofNat 16)

/-- The fields between colons; the last may be an IPv4 address, which counts as two. -/
def fields? : List (List Char) → Option (List (BitVec 16))
  | [] => some []
  | [l] =>
    if '.' ∈ l then (parseIPv4 l).map fun a => [a.extractLsb' 16 16, a.extractLsb' 0 16]
    else (field? l).map fun f => [f]
  | l :: rest => (field? l).bind fun f => (fields? rest).map (f :: ·)

def groups? (l : List Char) : Option (List (BitVec 16)) := if l = [] then some [] else fields? (l.splitOn ':')

def ofFields (fs : List (BitVec 16)) : IP := fs.foldl (fun a f => (a <<< 16) ||| f.setWidth 128) 0

/-- An ellipsis stands for at least one field of zeros, and only the last field may be an IPv4
address. -/
def parseIPv6 (l : List Char) : Option IP :=
  match cutChars [':', ':'] l with
  | none => (groups? l).bind fun fs => if fs.length = 8 then some (ofFields fs) else none
  | some (before, after) =>
    if '.' ∈ before then none
    else
      (groups? before).bind fun fs => (groups? after).bind fun gs =>
        if fs.length + gs.length < 8 then some (ofFields (fs ++ List.replicate (8 - fs.length - gs.length) 0 ++ gs))
        else none

/-- `netip.ParseAddr` without a zone: `.inl` for an IPv4 address. -/
def parseAddr (s : String) : Option (BitVec 32 ⊕ IP) :=
  match s.toList.find? fun c => c = '.' ∨ c = ':' ∨ c = '%' with
  | some '.' => (parseIPv4 s.toList).map .inl
  | some ':' => if '%' ∈ s.toList then none else (parseIPv6 s.toList).map .inr
  | _ => none

def parseIP (s : String) : Option IP :=
  match parseAddr s with
  | some (.inl a) => some (IP.ofV4 a)
  | some (.inr a) => some a
  | none => none

example : parseIP "8.8.8.8" = some (IP.ofV4 0x08080808#32) ∧ parseIP "127.0.0.01" = none ∧
    parseIP "2001:db8::1" = some 0x20010db8000000000000000000000001#128 ∧
    parseIP "::ffff:127.0.0.1" = some (IP.ofV4 0x7f000001#32) ∧ parseIP "fe80::1%eth0" = none ∧
      parseIP "1::2::3" = none := by
  decide +kernel

/-! An address has no spaces: its characters are between `.` and `f`. -/

def addrChar (c : Char) : Prop := 46 ≤ c.toNat ∧ c.toNat ≤ 102

instance (c : Char) : Decidable (addrChar c) := inferInstanceAs (Decidable (_ ∧ _))

theorem addrChar_of_isDigit {c : Char} (h : c.isDigit = true) : addrChar c := by
  simp only [Char.isDigit, Bool.and_eq_true, decide_eq_true_eq, UInt32.le_iff_toNat_le, ge_iff_le] at h
  have hlow : 48 ≤ c.toNat := h.1
  have hhigh : c.toNat ≤ 57 := h.2
  exact ⟨by omega, by omega⟩

theorem addrChar_of_hexDigit? {c : Char} {n : Nat} (h : hexDigit? c = some n) : addrChar c := by
  unfold hexDigit? at h
  split_ifs at h with hdigit hlower hupper
  · exact addrChar_of_isDigit hdigit
  · have hlow : 97 ≤ c.toNat := hlower.1
    have hhigh : c.toNat ≤ 102 := hlower.2
    exact ⟨by omega, by omega⟩
  · have hlow : 65 ≤ c.toNat := hupper.1
    have hhigh : c.toNat ≤ 70 := hupper.2
    exact ⟨by omega, by omega⟩

theorem addrChar_of_foldlM {f : Nat → Char → Option Nat} (hf : ∀ n c m, f n c = some m → addrChar c) {l : List Char}
    {n m : Nat} (h : l.foldlM f n = some m) : ∀ c ∈ l, addrChar c := by
  induction l generalizing n with
  | nil => simp
  | cons c l ih =>
    rw [List.foldlM_cons, Option.bind_eq_bind, Option.bind_eq_some_iff] at h
    obtain ⟨k, hk, h⟩ := h
    exact List.forall_mem_cons.2 ⟨hf n c k hk, ih h⟩

theorem exists_of_mapM {A B : Type*} {f : A → Option B} {l : List A} {r : List B} (h : l.mapM f = some r) :
    ∀ x ∈ l, ∃ y, f x = some y := by
  induction l generalizing r with
  | nil => simp
  | cons x l ih =>
    simp only [List.mapM_cons, Option.bind_eq_bind, Option.bind_eq_some_iff] at h
    obtain ⟨y, hy, r', hr', -⟩ := h
    exact List.forall_mem_cons.2 ⟨⟨y, hy⟩, ih hr'⟩

theorem addrChar_of_octet? {l : List Char} {a : BitVec 8} (h : octet? l = some a) : ∀ c ∈ l, addrChar c := by
  unfold octet? at h
  split at h
  · rename_i n hn
    unfold decimal? at hn
    split_ifs at hn
    refine addrChar_of_foldlM (fun n c m hm => ?_) hn
    obtain ⟨d, hd, -⟩ := Option.map_eq_some_iff.1 hm
    unfold digit? at hd
    split_ifs at hd with hdigit
    exact addrChar_of_isDigit hdigit
  · cases h

theorem addrChar_of_field? {l : List Char} {a : BitVec 16} (h : field? l = some a) : ∀ c ∈ l, addrChar c := by
  unfold field? at h
  split_ifs at h
  obtain ⟨m, hm, -⟩ := Option.map_eq_some_iff.1 h
  refine addrChar_of_foldlM (fun n c m hm => ?_) hm
  obtain ⟨d, hd, -⟩ := Option.map_eq_some_iff.1 hm
  exact addrChar_of_hexDigit? hd

/-- What is read piece by piece has only such characters if the separator is one. -/
theorem addrChar_of_splitOn (sep : Char) (hsep : addrChar sep) {l : List Char}
    (h : ∀ piece ∈ l.splitOn sep, ∀ c ∈ piece, addrChar c) : ∀ c ∈ l, addrChar c := by
  intro c hc
  rcases mem_splitOn (a := sep) hc with rfl | ⟨piece, hpiece, hmem⟩
  · exact hsep
  · exact h piece hpiece c hmem

theorem addrChar_of_parseIPv4 {l : List Char} {a : BitVec 32} (h : parseIPv4 l = some a) : ∀ c ∈ l, addrChar c := by
  unfold parseIPv4 at h
  split at h
  · rename_i hpieces
    refine addrChar_of_splitOn '.' (by decide) fun piece hpiece => ?_
    obtain ⟨b, hb⟩ := exists_of_mapM hpieces piece hpiece
    exact addrChar_of_octet? hb
  · cases h

theorem addrChar_of_fields? {ls : List (List Char)} {fs : List (BitVec 16)} (h : fields? ls = some fs) :
    ∀ l ∈ ls, ∀ c ∈ l, addrChar c := by
  induction ls generalizing fs with
  | nil => simp
  | cons l rest ih =>
    cases rest with
    | nil =>
      rw [fields?] at h
      split_ifs at h
      · obtain ⟨a, ha, -⟩ := Option.map_eq_some_iff.1 h
        simpa using addrChar_of_parseIPv4 ha
      · obtain ⟨f, hf, -⟩ := Option.map_eq_some_iff.1 h
        simpa using addrChar_of_field? hf
    | cons l' rest =>
      simp only [fields?, Option.bind_eq_some_iff] at h
      obtain ⟨f, hf, h⟩ := h
      obtain ⟨gs, hgs, -⟩ := Option.map_eq_some_iff.1 h
      exact List.forall_mem_cons.2 ⟨addrChar_of_field? hf, ih hgs⟩

theorem addrChar_of_groups? {l : List Char} {fs : List (BitVec 16)} (h : groups? l = some fs) :
    ∀ c ∈ l, addrChar c := by
  unfold groups? at h
  split_ifs at h with hnil
  · simp [hnil]
  · exact addrChar_of_splitOn ':' (by decide) (addrChar_of_fields? h)

theorem addrChar_of_parseIPv6 {l : List Char} {a : IP} (h : parseIPv6 l = some a) : ∀ c ∈ l, addrChar c := by
  unfold parseIPv6 at h
  split at h
  · obtain ⟨fs, hfs, -⟩ := Option.bind_eq_some_iff.1 h
    exact addrChar_of_groups? hfs
  · rename_i before after hcut
    split_ifs at h
    obtain ⟨fs, hfs, h⟩ := Option.bind_eq_some_iff.1 h
    obtain ⟨gs, hgs, -⟩ := Option.bind_eq_some_iff.1 h
    rw [cutChars_eq_some hcut]
    intro c hc
    simp only [List.mem_append, List.mem_cons, List.not_mem_nil, or_false] at hc
    rcases hc with (hc | rfl | rfl) | hc
    · exact addrChar_of_groups? hfs c hc
    · decide
    · decide
    · exact addrChar_of_groups? hgs c hc

theorem addrChar_of_parseIP {s : String} {ip : IP} (h : parseIP s = some ip) : ∀ c ∈ s.toList, addrChar c := by
  unfold parseIP parseAddr at h
  split at h
  · rename_i a haddr
    split at haddr
    · obtain ⟨b, hb, -⟩ := Option.map_eq_some_iff.1 haddr
      exact addrChar_of_parseIPv4 hb
    · split_ifs at haddr
      simp at haddr
    · cases haddr
  · rename_i a haddr
    split at haddr
    · simp at haddr
    · split_ifs at haddr
      obtain ⟨b, hb, -⟩ := Option.map_eq_some_iff.1 haddr
      exact addrChar_of_parseIPv6 hb
    · cases haddr
  · cases h

theorem trimSpace_of_parseIP {s : String} {ip : IP} (h : parseIP s = some ip) : trimSpace s = s := by
  refine trimSpace_eq_self fun c hc => ?_
  obtain ⟨hlow, hhigh⟩ := addrChar_of_parseIP h c hc
  exact isSpace_eq_false (by omega) (by omega)

/-! ### Networks -/

/-- `net.IPNet` with a prefix mask. -/
inductive IPNet
  | v4 (base : BitVec 32) (length : Nat)
  | v6 (base : IP) (length : Nat)
deriving DecidableEq, Repr

def samePrefix {w : Nat} (length : Nat) (a b : BitVec w) : Bool := a >>> (w - length) = b >>> (w - length)

def IPNet.contains : IPNet → IP → Bool
  | .v4 base length, ip => ip.to4.any fun a => samePrefix length a base
  | .v6 base length, ip => ip.to4.isNone && samePrefix length ip base

/-- A network of IPv4-mapped addresses is one of IPv4 addresses. -/
def IPNet.ofV6 (base : IP) (length : Nat) : IPNet :=
  match IP.to4 base with
  | some a => if 96 ≤ length then .v4 a (length - 96) else .v6 base length
  | none => .v6 base length

def parseCIDR (s : String) : Option IPNet :=
  match cutText "/" s with
  | none => none
  | some (addr, mask) =>
    match parseAddr addr, decimal? mask.toList with
    | some (.inl a), some n => if n ≤ 32 then some (.v4 a n) else none
    | some (.inr a), some n => if n ≤ 128 then some (.ofV6 a n) else none
    | _, _ => none

def isIpInCIDRList (ip : IP) (list : List String) : Bool :=
  list.any fun cidr =>
    match parseCIDR cidr with
    | some net => net.contains ip
    | none => parseIP cidr = some ip

/-! ### Private addresses -/

def IP.isUnspecified (ip : IP) : Bool := ip = IP.ofV4 0 || ip = 0

def IP.isLoopback (ip : IP) : Bool :=
  match ip.to4 with
  | some a => byte 0 a = 127
  | none => ip = 1

def IP.isLinkLocalUnicast (ip : IP) : Bool :=
  match ip.to4 with
  | some a => byte 0 a = 169 && byte 1 a = 254
  | none => byte 0 ip = 0xfe && byte 1 ip &&& 0xc0 = 0x80

def IP.isLinkLocalMulticast (ip : IP) : Bool :=
  match ip.to4 with
  | some a => byte 0 a = 224 && byte 1 a = 0 && byte 2 a = 0
  | none => byte 0 ip = 0xff && byte 1 ip &&& 0x0f = 0x02

def IP.isInterfaceLocalMulticast (ip : IP) : Bool := byte 0 ip = 0xff && byte 1 ip &&& 0x0f = 0x01

def IP.isPrivate (ip : IP) : Bool :=
  match ip.to4 with
  | some a => byte 0 a = 10 || (byte 0 a = 172 && byte 1 a &&& 0xf0 = 16) || (byte 0 a = 192 && byte 1 a = 168)
  | none => byte 0 ip &&& 0xfe = 0xfc

def privateIPv4Nets : List IPNet :=
  [.v4 (v4 0 0 0 0) 8, .v4 (v4 10 0 0 0) 8, .v4 (v4 100 64 0 0) 10, .v4 (v4 127 0 0 0) 8, .v4 (v4 169 254 0 0) 16,
    .v4 (v4 172 16 0 0) 12, .v4 (v4 192 0 0 0) 24, .v4 (v4 192 0 2 0) 24, .v4 (v4 192 168 0 0) 16,
      .v4 (v4 198 18 0 0) 15,
    .v4 (v4 198 51 100 0) 24, .v4 (v4 203 0 113 0) 24, .v4 (v4 224 0 0 0) 4, .v4 (v4 240 0 0 0) 4,
    .v4 (v4 255 255 255 255) 32]

def privateIPv6Nets : List IPNet :=
  ["::/128", "::1/128", "::ffff:0:0/96", "64:ff9b::/96", "100::/64", "2001::/23", "2001:db8::/32",
    "fc00::/7", "fe80::/10",
    "ff00::/8"].filterMap parseCIDR

def isPrivateIP (ip : IP) : Bool :=
  if ip.isUnspecified then true
  else if ip.isLoopback || ip.isLinkLocalUnicast || ip.isLinkLocalMulticast then true
  else if ip.isInterfaceLocalMulticast then true
  else
    match ip.to4 with
    | some _ => privateIPv4Nets.any fun net => net.contains ip
    | none => privateIPv6Nets.any (fun net => net.contains ip) || ip.isPrivate

example : (["8.8.8.8", "100.63.255.255", "2606:4700::1111"].filterMap parseIP).map isPrivateIP = [false, false, false] ∧
    (["10.1.2.3", "100.64.0.1", "::ffff:127.0.0.1", "64:ff9b::1", "fd00::1", "::"].filterMap parseIP).map isPrivateIP =
      [true, true, true, true, true, true] := by
  decide +kernel

end TokenEra.Fetch
