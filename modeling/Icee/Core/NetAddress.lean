import Icee.Core.Basic
import Icee.Lib.Memory

set_option relaxedAutoImplicit false
set_option autoImplicit false

/-!
# Network addresses

`src/core/net_address.cc`: a `NetAddress` is a protocol, a `struct sockaddr`, and the length of the
latter, which is what `bind` and `connect` are told. The constructor writes the address and the port
through a pointer to the `sockaddr`, cast to the structure of the protocol, and the getters read
them through the same pointer.

## Main definitions

* `Icee.NetAddress.Member` — the layout of the object.
* `Icee.NetAddress.stores`, `Icee.NetAddress.make` — the constructor.
* `Icee.NetAddress.yieldAddrlen`, `Icee.NetAddress.getIp`, `Icee.NetAddress.getPort`.
* `Icee.NetAddress.Intact` — what an address must be like after its constructor.

## Main results

* `Icee.NetAddress.getIp_make`, `Icee.NetAddress.getPort_make` — the getters return what the
  constructor was given.
* `Icee.NetAddress.intact_iff` — for which protocol the constructor writes nothing but the members
  it means to.

## Design

The object is at address 0 of a memory of bytes that goes on behind it and holds anything before the
constructor is called. `inet_pton` and `inet_ntop` are parameters. What differs from one platform to
the other, the byte order and the family, is one too.
-/

namespace Icee

/-- `Protocol`. -/
inductive Protocol
  | ipv4
  | ipv6
  deriving DecidableEq, Repr

namespace Protocol

/-- The value of the enumerator. -/
def value : Protocol → ℕ
  | .ipv4 => 0
  | .ipv6 => 1

/-- Where `sockaddr_in` has `sin_addr` and `sockaddr_in6` has `sin6_addr`. -/
@[simp] def addressOffset : Protocol → ℕ
  | .ipv4 => 4
  | .ipv6 => 8

/-- `sizeof(in_addr)` and `sizeof(in6_addr)`. -/
@[simp] def addressLength : Protocol → ℕ
  | .ipv4 => 4
  | .ipv6 => 16

/-- `INET_ADDRSTRLEN` and `INET6_ADDRSTRLEN`. -/
def addrStrLen : Protocol → ℕ
  | .ipv4 => 16
  | .ipv6 => 46

end Protocol

/-- The functions of the C library. -/
structure Inet where
  /-- `inet_pton`: what is stored, if the text is an address. -/
  pton : Protocol → Bytes → Option Bytes
  /-- `inet_ntop`, given the size of the buffer: the text, if it has room. -/
  ntop : Protocol → Bytes → ℕ → Option Bytes
  /-- The text is the canonical one of an address. -/
  Canonical : Protocol → Bytes → Prop
  length_pton : ∀ protocol text bs, pton protocol text = some bs →
    bs.length = protocol.addressLength
  ntop_pton : ∀ protocol text, Canonical protocol text →
    ∃ bs, pton protocol text = some bs ∧ ntop protocol bs protocol.addrStrLen = some text

/-- What a platform decides: the order of bytes, and where the family is and what is stored for
it. -/
structure Platform where
  byteOrder : Memory.ByteOrder
  familyOffset : ℕ
  family : Protocol → Bytes
  family_fits : ∀ protocol, familyOffset + (family protocol).length ≤ 2

/-- `htons` and `ntohs`: the bytes are swapped where the host has the lowest one first. -/
def htons (order : Memory.ByteOrder) (port : UInt16) : UInt16 :=
  match order with
  | .little => UInt16.ofNat (port.toNat % 256 * 256 + port.toNat / 256)
  | .big => port

namespace NetAddress

/-- The members. -/
inductive Member
  /-- `protocol_`. -/
  | protocol
  /-- `addr_`. -/
  | addr
  /-- `addr_len_`. -/
  | addrLen
  deriving DecidableEq, Repr

namespace Member

/-- Where a member is in the object. -/
@[simp] def offset : Member → ℕ
  | .protocol => 0
  | .addr => 4
  | .addrLen => 20

/-- How many bytes a member has. -/
@[simp] def size : Member → ℕ
  | .protocol => 4
  | .addr => 16
  | .addrLen => 4

end Member

/-- A store to a member, or through a pointer to it. -/
structure MemberStore where
  member : Member
  store : Memory.Store UInt8
  deriving DecidableEq, Repr

/-- What both constructors store in the members at first. -/
def clearStores (platform : Platform) (protocol : Protocol) : List MemberStore :=
  [⟨.protocol, Member.protocol.offset, platform.byteOrder.encode 4 protocol.value⟩,
    -- `addr_{}` and `memset(&addr_, 0, sizeof(addr_))`
    ⟨.addr, Member.addr.offset, List.replicate Member.addr.size 0⟩,
    ⟨.addr, Member.addr.offset, List.replicate Member.addr.size 0⟩,
    ⟨.addrLen, Member.addrLen.offset, platform.byteOrder.encode 4 Member.addr.size⟩]

/-- The stores through the pointer to `addr_` that has been cast to the structure of the protocol.
`inet_pton` stores nothing if the text is not an address. -/
def viewStores (inet : Inet) (platform : Platform) (ip : Bytes) (port : UInt16)
    (protocol : Protocol) : List MemberStore :=
  [⟨.addr, Member.addr.offset + platform.familyOffset, platform.family protocol⟩] ++
  (inet.pton protocol ip).toList.map
    (fun bs => ⟨.addr, Member.addr.offset + protocol.addressOffset, bs⟩) ++
  [⟨.addr, Member.addr.offset + 2,
    platform.byteOrder.encode 2 (htons platform.byteOrder port).toNat⟩]

/-- `NetAddress(ip, port, protocol)`. -/
def stores (inet : Inet) (platform : Platform) (ip : Bytes) (port : UInt16)
    (protocol : Protocol) : List MemberStore :=
  clearStores platform protocol ++ viewStores inet platform ip port protocol

/-- The memory after the stores of a constructor. -/
def run (m : ℕ → UInt8) (stores : List MemberStore) : ℕ → UInt8 :=
  Memory.run m (stores.map MemberStore.store)

/-- The memory after `NetAddress()`, in which `protocol_` has its default. -/
def makeDefault (platform : Platform) (m : ℕ → UInt8) : ℕ → UInt8 :=
  run m (clearStores platform .ipv4)

/-- The memory after `NetAddress(ip, port, protocol)`. -/
def make (inet : Inet) (platform : Platform) (ip : Bytes) (port : UInt16) (protocol : Protocol)
    (m : ℕ → UInt8) : ℕ → UInt8 :=
  run m (stores inet platform ip port protocol)

/-- The bytes of a member. -/
def readMember (m : ℕ → UInt8) (member : Member) : Bytes :=
  Memory.read m member.offset member.size

/-- `GetProtocol`. The other getters take any value but the one of `Ipv4` for `Ipv6`. -/
def getProtocol (platform : Platform) (m : ℕ → UInt8) : Protocol :=
  if platform.byteOrder.decode (readMember m .protocol) = Protocol.ipv4.value then .ipv4 else .ipv6

/-- `*YieldAddrlen()`. -/
def yieldAddrlen (platform : Platform) (m : ℕ → UInt8) : ℕ :=
  platform.byteOrder.decode (readMember m .addrLen)

/-- `GetIp`, unless `inet_ntop` leaves the buffer as it is. -/
def getIp (inet : Inet) (platform : Platform) (m : ℕ → UInt8) : Option Bytes :=
  let protocol := getProtocol platform m
  inet.ntop protocol
    (Memory.read m (Member.addr.offset + protocol.addressOffset) protocol.addressLength)
    protocol.addrStrLen

/-- `GetPort`. Both structures have the port at the same place. -/
def getPort (platform : Platform) (m : ℕ → UInt8) : UInt16 :=
  htons platform.byteOrder
    (UInt16.ofNat (platform.byteOrder.decode (Memory.read m (Member.addr.offset + 2) 2)))

/-- Every byte that is stored through a member, or through a pointer to it, lies in the member. -/
def Contained (stores : List MemberStore) : Prop :=
  ∀ w ∈ stores, w.store.Within w.member.offset w.member.size

/-- **What an address must be like** after its constructor: the length is the one of `addr_`, no
byte has been stored outside of the member it was meant for, and the getters return what the
constructor was given. -/
structure Intact (inet : Inet) (platform : Platform) (ip : Bytes) (port : UInt16)
    (protocol : Protocol) (m : ℕ → UInt8) : Prop where
  addrLen_eq : yieldAddrlen platform (make inet platform ip port protocol m) = Member.addr.size
  contained : Contained (stores inet platform ip port protocol)
  getIp_eq : getIp inet platform (make inet platform ip port protocol m) = some ip
  getPort_eq : getPort platform (make inet platform ip port protocol m) = port

/-! ## The port in the order of the network -/

/-- `ntohs` undoes `htons`. -/
@[simp] lemma htons_htons (order : Memory.ByteOrder) (port : UInt16) :
    htons order (htons order port) = port := by
  cases order with
  | big => rfl
  | little =>
    have hlt := port.toNat_lt
    have hswap : (htons .little port).toNat = port.toNat % 256 * 256 + port.toNat / 256 := by
      rw [htons, UInt16.toNat_ofNat', Nat.mod_eq_of_lt (by omega)]
    apply UInt16.toNat_inj.mp
    rw [htons, hswap, UInt16.toNat_ofNat', Nat.mod_eq_of_lt (by omega)]
    omega

/-! ## The constructor and what is read afterwards -/

section Make

variable {inet : Inet} {platform : Platform} {ip bs : Bytes} {port : UInt16} {protocol : Protocol}
  {m : ℕ → UInt8}

/-- The stores through the pointer to `addr_`, if the text is an address. -/
lemma viewStores_eq (hpton : inet.pton protocol ip = some bs) :
    viewStores inet platform ip port protocol =
      [⟨.addr, Member.addr.offset + platform.familyOffset, platform.family protocol⟩,
        ⟨.addr, Member.addr.offset + protocol.addressOffset, bs⟩,
        ⟨.addr, Member.addr.offset + 2,
          platform.byteOrder.encode 2 (htons platform.byteOrder port).toNat⟩] := by
  rw [viewStores, hpton]
  rfl

/-- They begin in `addr_`. -/
lemma offset_le_of_mem_viewStores {w : MemberStore}
    (hw : w ∈ viewStores inet platform ip port protocol) :
    Member.addr.offset ≤ w.store.address := by
  simp only [viewStores, List.mem_append, List.mem_singleton, List.mem_map] at hw
  rcases hw with (rfl | ⟨bs, -, rfl⟩) | rfl
  all_goals exact Nat.le_add_right _ _

/-- **A range of the object** holds what the last store to it has there. -/
lemma read_run {stores : List MemberStore} {i length : ℕ} {w : MemberStore}
    (hi : stores[i]? = some w) (hlength : w.store.bytes.length = length)
    (hback : ∀ t ∈ stores.drop (i + 1), t.store.Apart w.store.address length) :
    Memory.read (run m stores) w.store.address length = w.store.bytes := by
  refine Memory.read_run_self (i := i) ?_ hlength ?_
  · rw [List.getElem?_map, hi, Option.map_some]
  · simpa [← List.map_drop] using hback

/-- The getters use the protocol that the constructor was given. -/
lemma getProtocol_make (inet : Inet) (platform : Platform) (ip : Bytes) (port : UInt16)
    (protocol : Protocol) (m : ℕ → UInt8) :
    getProtocol platform (make inet platform ip port protocol m) = protocol := by
  have hread : readMember (make inet platform ip port protocol m) .protocol =
      platform.byteOrder.encode 4 protocol.value := by
    refine read_run (i := 0) (w := ⟨.protocol, Member.protocol.offset, _⟩) rfl
      (Memory.ByteOrder.length_encode ..) fun t ht => .inr ?_
    -- whatever is stored later is stored to a later member
    obtain ht | ht := List.mem_append.mp (show t ∈ _ ++ viewStores .. from ht)
    · simp only [List.mem_cons, List.not_mem_nil, or_false] at ht
      rcases ht with rfl | rfl | rfl <;> simp
    · exact offset_le_of_mem_viewStores ht
  rw [getProtocol, hread, Memory.ByteOrder.decode_encode _ (by cases protocol <;> decide)]
  cases protocol <;> rfl

/-- **The length of an address of the protocol IPv4** is the one of `addr_`. -/
lemma yieldAddrlen_ipv4 (hpton : inet.pton .ipv4 ip = some bs) :
    yieldAddrlen platform (make inet platform ip port .ipv4 m) = Member.addr.size := by
  have hfits := platform.family_fits .ipv4
  have hbs := inet.length_pton _ _ _ hpton
  have hread : readMember (make inet platform ip port .ipv4 m) .addrLen =
      platform.byteOrder.encode 4 Member.addr.size := by
    refine read_run (i := 3) (w := ⟨.addrLen, Member.addrLen.offset, _⟩) rfl
      (Memory.ByteOrder.length_encode ..) fun t ht => .inl ?_
    replace ht : t ∈ viewStores inet platform ip port .ipv4 := ht
    simp only [viewStores_eq hpton, List.mem_cons, List.not_mem_nil, or_false] at ht
    rcases ht with rfl | rfl | rfl
    · simp only [Member.offset]
      omega
    · rw [hbs]
      simp
    · simp
  rw [yieldAddrlen, hread, Memory.ByteOrder.decode_encode _ (by decide)]

/-- The address is the one that `inet_pton` has stored. -/
lemma read_address_make (hpton : inet.pton protocol ip = some bs) :
    Memory.read (make inet platform ip port protocol m)
      (Member.addr.offset + protocol.addressOffset) protocol.addressLength = bs := by
  refine read_run (i := 5) (w := ⟨.addr, Member.addr.offset + protocol.addressOffset, bs⟩)
    ?_ (inet.length_pton _ _ _ hpton) fun t ht => .inl ?_
  · rw [stores, viewStores_eq hpton]
    rfl
  · -- only the port is stored later, in front of the address
    rw [stores, viewStores_eq hpton] at ht
    obtain rfl := List.mem_singleton.mp ht
    cases protocol <;> simp

/-- **`GetIp` returns the address**, whatever the protocol. -/
lemma getIp_make (hip : inet.Canonical protocol ip) :
    getIp inet platform (make inet platform ip port protocol m) = some ip := by
  obtain ⟨bs, hpton, hntop⟩ := inet.ntop_pton _ _ hip
  simp only [getIp, getProtocol_make, read_address_make hpton, hntop]

/-- **`GetPort` returns the port**, whatever the protocol. -/
lemma getPort_make (hpton : inet.pton protocol ip = some bs) :
    getPort platform (make inet platform ip port protocol m) = port := by
  have hread : Memory.read (make inet platform ip port protocol m) (Member.addr.offset + 2) 2 =
      platform.byteOrder.encode 2 (htons platform.byteOrder port).toNat := by
    refine read_run (i := 6) (w := ⟨.addr, Member.addr.offset + 2, _⟩)
      ?_ (Memory.ByteOrder.length_encode ..) fun t ht => ?_
    · rw [stores, viewStores_eq hpton]
      rfl
    · rw [stores, viewStores_eq hpton] at ht
      exact absurd ht List.not_mem_nil
  rw [getPort, hread, Memory.ByteOrder.decode_encode _ (UInt16.toNat_lt _), UInt16.ofNat_toNat,
    htons_htons]

/-- **The length of an address of the protocol IPv6** is made of four bytes of the address. -/
lemma yieldAddrlen_ipv6 (hpton : inet.pton .ipv6 ip = some bs) :
    yieldAddrlen platform (make inet platform ip port .ipv6 m) =
      platform.byteOrder.decode ((bs.drop 8).take 4) := by
  have hbs := inet.length_pton _ _ _ hpton
  have hread : readMember (make inet platform ip port .ipv6 m) .addrLen =
      (bs.drop 8).take 4 := by
    refine Memory.read_run_of_last (i := 5)
      (s := ⟨Member.addr.offset + Protocol.ipv6.addressOffset, bs⟩) ?_ (by simp) ?_
      fun t ht => .inl ?_
    · rw [stores, viewStores_eq hpton]
      rfl
    · rw [hbs]
      simp
    · rw [stores, viewStores_eq hpton] at ht
      obtain rfl := List.mem_singleton.mp ht
      simp
  rw [yieldAddrlen, hread]

/-- The members are stored to as a whole before the pointer to `addr_` is cast. -/
lemma contained_clearStores (platform : Platform) (protocol : Protocol) :
    Contained (clearStores platform protocol) := by
  intro w hw
  simp only [clearStores, List.mem_cons, List.not_mem_nil, or_false] at hw
  rcases hw with rfl | rfl | rfl | rfl
  all_goals exact Memory.Store.within_of_le le_rfl (by simp)

/-- **What stays inside of the members**: the address of IPv4 does, and the one of IPv6 does not. -/
lemma contained_stores_iff (hpton : inet.pton protocol ip = some bs) :
    Contained (stores inet platform ip port protocol) ↔ protocol = .ipv4 := by
  have hfits := platform.family_fits protocol
  have hbs := inet.length_pton _ _ _ hpton
  constructor
  · intro h
    have haddress := h ⟨.addr, Member.addr.offset + protocol.addressOffset, bs⟩
      (by simp [stores, viewStores_eq hpton])
    cases protocol with
    | ipv4 => rfl
    | ipv6 =>
      have hlast := haddress 27 ⟨by simp, by rw [hbs]; simp⟩
      exact absurd hlast.2 (by simp)
  · rintro rfl w hw
    obtain hw | hw := List.mem_append.mp hw
    · exact contained_clearStores platform .ipv4 w hw
    · simp only [viewStores_eq hpton, List.mem_cons, List.not_mem_nil, or_false] at hw
      rcases hw with rfl | rfl | rfl
      · refine Memory.Store.within_of_le (Nat.le_add_right _ _) ?_
        simp only [Member.offset, Member.size]
        omega
      · exact Memory.Store.within_of_le (Nat.le_add_right _ _) (by rw [hbs]; simp)
      · exact Memory.Store.within_of_le (Nat.le_add_right _ _) (by simp)

/-- An address for `accept` to fill in has the length of `addr_`. -/
lemma yieldAddrlen_makeDefault (platform : Platform) (m : ℕ → UInt8) :
    yieldAddrlen platform (makeDefault platform m) = Member.addr.size := by
  have hread : readMember (makeDefault platform m) .addrLen =
      platform.byteOrder.encode 4 Member.addr.size :=
    read_run (i := 3) (w := ⟨.addrLen, Member.addrLen.offset, _⟩) rfl
      (Memory.ByteOrder.length_encode ..) fun t ht => absurd ht List.not_mem_nil
  rw [yieldAddrlen, hread, Memory.ByteOrder.decode_encode _ (by decide)]

/-- **For which protocol an address is what it must be** after its constructor: for every IPv4
address and every port, and for no IPv6 address and port, whatever the memory held before. -/
theorem intact_iff (inet : Inet) (platform : Platform) {ip : Bytes} {protocol : Protocol}
    (hip : inet.Canonical protocol ip) (port : UInt16) (m : ℕ → UInt8) :
    Intact inet platform ip port protocol m ↔ protocol = .ipv4 := by
  obtain ⟨bs, hpton, -⟩ := inet.ntop_pton _ _ hip
  constructor
  · intro h
    exact (contained_stores_iff hpton).mp h.contained
  · rintro rfl
    exact ⟨yieldAddrlen_ipv4 hpton, (contained_stores_iff hpton).mpr rfl, getIp_make hip,
      getPort_make hpton⟩

end Make

/-! ## Two addresses -/

/-- Linux on a processor that has the lowest byte first. `AF_INET` is 2 and `AF_INET6` is 10. -/
def linux : Platform where
  byteOrder := .little
  familyOffset := 0
  family
    | .ipv4 => Memory.ByteOrder.little.encode 2 2
    | .ipv6 => Memory.ByteOrder.little.encode 2 10
  family_fits protocol := by cases protocol <;> decide

/-- An address of each protocol, its text, and its bytes. -/
def knownAddresses : List (Protocol × Bytes × Bytes) :=
  [(.ipv4, bytes "127.0.0.1", [127, 0, 0, 1]),
    (.ipv6, bytes "2001:db8:3333:4444:5555:6666:7777:8888",
      [0x20, 0x01, 0x0d, 0xb8, 0x33, 0x33, 0x44, 0x44, 0x55, 0x55, 0x66, 0x66, 0x77, 0x77,
        0x88, 0x88])]

/-- The functions of the C library, as far as they are about known addresses. -/
def knownInet : Inet where
  pton protocol text :=
    (knownAddresses.find? fun known => known.1 = protocol ∧ known.2.1 = text).map (·.2.2)
  ntop protocol bs size :=
    ((knownAddresses.find? fun known => known.1 = protocol ∧ known.2.2 = bs).map (·.2.1)).filter
      (·.length < size)
  Canonical protocol text := ∃ bs, (protocol, text, bs) ∈ knownAddresses
  length_pton protocol text bs hpton := by
    obtain ⟨known, hfind, rfl⟩ := Option.map_eq_some_iff.mp hpton
    have hprotocol := List.find?_some hfind
    have hlength : ∀ known ∈ knownAddresses, known.2.2.length = known.1.addressLength := by
      decide +kernel
    simp only [decide_eq_true_eq] at hprotocol
    rw [hlength known (List.mem_of_find?_eq_some hfind), hprotocol.1]
  ntop_pton protocol text hknown := by
    obtain ⟨bs, hmem⟩ := hknown
    simp only [knownAddresses, List.mem_cons, List.not_mem_nil, or_false, Prod.mk.injEq] at hmem
    rcases hmem with ⟨rfl, rfl, rfl⟩ | ⟨rfl, rfl, rfl⟩
    · exact ⟨[127, 0, 0, 1], by decide +kernel, by decide +kernel⟩
    · exact ⟨_, rfl, by decide +kernel⟩

/-- The loopback address. -/
theorem intact_iff_loopback :
    knownInet.Canonical .ipv4 (bytes "127.0.0.1") ∧
      Intact knownInet linux (bytes "127.0.0.1") 20080 .ipv4 fun _ => 0 := by
  have hip : knownInet.Canonical .ipv4 (bytes "127.0.0.1") := ⟨_, List.mem_cons_self⟩
  exact ⟨hip, (intact_iff knownInet linux hip 20080 fun _ => 0).mpr rfl⟩

/-- An address of the protocol IPv6: the getters return what the constructor was given, but the
length is made of the bytes `55 55 66 66` of the address, and its last four bytes are stored behind
the object. -/
theorem ipv6_overwrites_length :
    let ip := bytes "2001:db8:3333:4444:5555:6666:7777:8888"
    let m := make knownInet linux ip 40080 .ipv6 fun _ => 0
    knownInet.Canonical .ipv6 ip ∧ ¬ Intact knownInet linux ip 40080 .ipv6 (fun _ => 0) ∧
      yieldAddrlen linux m = 1717982549 ∧ Memory.read m 24 4 = [0x77, 0x77, 0x88, 0x88] ∧
      getIp knownInet linux m = some ip ∧ getPort linux m = 40080 := by
  intro ip m
  have hlen : yieldAddrlen linux m = 1717982549 := by decide +kernel
  refine ⟨⟨_, List.mem_cons_of_mem _ List.mem_cons_self⟩, ?_, hlen, by decide +kernel,
    by decide +kernel, by decide +kernel⟩
  intro h
  exact absurd (hlen.symm.trans h.addrLen_eq) (by decide)

end NetAddress

end Icee
