import Icee.Core.NetAddress

set_option relaxedAutoImplicit false
set_option autoImplicit false

/-!
# Addresses on their way through the kernel

`Socket::Bind` and `Socket::Connect` hand `YieldAddr()` and `*YieldAddrlen()` to the kernel, and
`Socket::Accept` has it fill in a `NetAddress` that has been made with no address
(`src/core/socket.cc`). What the one side hands over is what the other side reads.

## Main definitions

* `Icee.NetAddress.given` — the bytes that `bind` and `connect` are given.
* `Icee.NetAddress.sockaddr` — the format of these bytes.
* `Icee.NetAddress.accept` — what `accept` does to a `NetAddress`.

## Main results

* `Icee.NetAddress.given_make` — the constructor for IPv4 keeps to the format.
* `Icee.NetAddress.accept_given` — the address and the port of a client are what the server reads
  after `accept`, and nothing else is changed.

## Design

`accept` stores no more of an address than fits in the length it is told, and then the length that
the address has.
-/

namespace Icee

namespace NetAddress

/-- What `bind` and `connect` are given. -/
def given (platform : Platform) (m : ℕ → UInt8) : Bytes :=
  Memory.read m Member.addr.offset (yieldAddrlen platform m)

/-- The first two bytes of a `sockaddr_in`. -/
def familyBytes (platform : Platform) : Bytes :=
  Memory.read (Memory.write (fun _ => 0) platform.familyOffset (platform.family .ipv4)) 0 2

/-- The bytes of a `sockaddr_in`: the family, the port with its higher byte first, the address, and
`sin_zero`. -/
def sockaddr (platform : Platform) (bs : Bytes) (port : UInt16) : Bytes :=
  familyBytes platform ++
    ([UInt8.ofNat (port.toNat / 256), UInt8.ofNat port.toNat] ++ (bs ++ List.replicate 8 0))

/-- What `accept` stores for a peer with this address. -/
def acceptStores (platform : Platform) (peer : Bytes) (m : ℕ → UInt8) : List MemberStore :=
  [⟨.addr, Member.addr.offset, peer.take (yieldAddrlen platform m)⟩,
    ⟨.addrLen, Member.addrLen.offset, platform.byteOrder.encode 4 peer.length⟩]

/-- The memory after `accept` has been given the `NetAddress` at its beginning. -/
def accept (platform : Platform) (peer : Bytes) (m : ℕ → UInt8) : ℕ → UInt8 :=
  run m (acceptStores platform peer m)

section Format

variable {inet : Inet} {platform : Platform} {ip bs : Bytes} {port : UInt16} {m : ℕ → UInt8}

/-- The port is stored with its higher byte first, whatever the order of the host. -/
lemma encode_htons (order : Memory.ByteOrder) (port : UInt16) :
    order.encode 2 (htons order port).toNat =
      [UInt8.ofNat (port.toNat / 256), UInt8.ofNat port.toNat] := by
  have hlt := port.toNat_lt
  cases order with
  | big => simp [htons, Memory.ByteOrder.encode, Memory.encodeLittle]
  | little =>
    have hswap : (htons .little port).toNat = port.toNat % 256 * 256 + port.toNat / 256 := by
      rw [htons, UInt16.toNat_ofNat', Nat.mod_eq_of_lt (by omega)]
    have hfirst : UInt8.ofNat (port.toNat % 256 * 256 + port.toNat / 256) =
        UInt8.ofNat (port.toNat / 256) := by
      apply UInt8.toNat_inj.mp
      simp only [UInt8.toNat_ofNat']
      omega
    have hdiv : (port.toNat % 256 * 256 + port.toNat / 256) / 256 = port.toNat % 256 := by
      rw [Nat.add_comm, Nat.add_mul_div_right _ _ (by decide), Nat.div_eq_of_lt (by omega),
        Nat.zero_add]
    have hsecond : UInt8.ofNat ((port.toNat % 256 * 256 + port.toNat / 256) / 256) =
        UInt8.ofNat port.toNat := by
      apply UInt8.toNat_inj.mp
      simp only [UInt8.toNat_ofNat', hdiv]
      omega
    rw [hswap, Memory.ByteOrder.encode, Memory.encodeLittle, Memory.encodeLittle, hfirst, hsecond]
    rfl

/-- The two bytes of the port. -/
lemma read_port_make (hpton : inet.pton .ipv4 ip = some bs) :
    Memory.read (make inet platform ip port .ipv4 m) (Member.addr.offset + 2) 2 =
      [UInt8.ofNat (port.toNat / 256), UInt8.ofNat port.toNat] := by
  rw [← encode_htons platform.byteOrder]
  refine read_run (i := 6) (w := ⟨.addr, Member.addr.offset + 2, _⟩)
    ?_ (Memory.ByteOrder.length_encode ..) fun t ht => ?_
  · rw [stores, viewStores_eq hpton]
    rfl
  · rw [stores, viewStores_eq hpton] at ht
    exact absurd ht List.not_mem_nil

/-- The eight bytes behind the address are those of `memset`. -/
lemma read_zero_make (hpton : inet.pton .ipv4 ip = some bs) :
    Memory.read (make inet platform ip port .ipv4 m) (Member.addr.offset + 8) 8 =
      List.replicate 8 0 := by
  have hfits := platform.family_fits .ipv4
  have hbs := inet.length_pton _ _ _ hpton
  refine Memory.read_run_of_last (i := 2) (s := ⟨Member.addr.offset, List.replicate 16 0⟩) ?_
    (Nat.le_add_right _ _) (by simp) fun t ht => ?_
  · rw [stores, viewStores_eq hpton]
    rfl
  · rw [stores, viewStores_eq hpton] at ht
    simp only [clearStores, List.cons_append, List.nil_append, List.map_cons, List.map_nil,
      List.drop_succ_cons, List.drop_zero, List.mem_cons, List.not_mem_nil, or_false] at ht
    rcases ht with rfl | rfl | rfl | rfl
    · exact .inr (by simp)
    · refine .inl ?_
      simp only [Member.offset]
      omega
    · exact .inl (by rw [hbs]; simp)
    · exact .inl (by simp)

/-- The two bytes in front of the port. -/
lemma read_family_make (hpton : inet.pton .ipv4 ip = some bs) :
    Memory.read (make inet platform ip port .ipv4 m) Member.addr.offset 2 =
      familyBytes platform := by
  have hfits := platform.family_fits .ipv4
  have hbs := inet.length_pton _ _ _ hpton
  let cleared := run m (clearStores platform .ipv4)
  let family : Memory.Store UInt8 := ⟨Member.addr.offset + platform.familyOffset,
    platform.family .ipv4⟩
  have hmake : make inet platform ip port .ipv4 m =
      Memory.run (Memory.write cleared family.address family.bytes)
        [⟨Member.addr.offset + Protocol.ipv4.addressOffset, bs⟩, ⟨Member.addr.offset + 2,
          platform.byteOrder.encode 2 (htons platform.byteOrder port).toNat⟩] := by
    rw [make, stores, viewStores_eq hpton]
    rfl
  have hcleared : Memory.read cleared Member.addr.offset 2 = [0, 0] := by
    refine Memory.read_run_of_last (i := 2) (s := ⟨Member.addr.offset, List.replicate 16 0⟩) rfl
      le_rfl (by simp) fun t ht => .inr ?_
    rw [List.mem_singleton.mp ht]
    simp
  rw [hmake, Memory.read_run_of_apart fun t ht => ?_]
  · exact (Memory.read_write_congr (hcleared.trans rfl) platform.familyOffset _).trans (by
      rw [familyBytes, Nat.zero_add])
  · simp only [List.mem_cons, List.not_mem_nil, or_false] at ht
    rcases ht with rfl | rfl
    · exact .inr (by simp)
    · exact .inr le_rfl

/-- **The constructor keeps to the format.** -/
lemma given_make (hpton : inet.pton .ipv4 ip = some bs) :
    given platform (make inet platform ip port .ipv4 m) = sockaddr platform bs port := by
  have hsplit := Memory.read_append (make inet platform ip port .ipv4 m)
  rw [given, yieldAddrlen_ipv4 hpton, sockaddr, ← read_family_make hpton, ← read_port_make hpton,
    ← read_zero_make hpton, ← read_address_make hpton]
  simp only [Member.size, Member.offset, Protocol.addressOffset, Protocol.addressLength]
  rw [hsplit 8 4 8, hsplit 6 2 12, hsplit 4 2 14]

end Format

section Accept

variable {inet : Inet} {platform : Platform} {ip : Bytes} {port : UInt16} {peer : Bytes}
  {m : ℕ → UInt8}

/-- A `NetAddress` with no address is one of IPv4. -/
lemma read_protocol_makeDefault (platform : Platform) (m : ℕ → UInt8) :
    readMember (makeDefault platform m) .protocol =
      platform.byteOrder.encode 4 Protocol.ipv4.value := by
  refine read_run (i := 0) (w := ⟨.protocol, Member.protocol.offset, _⟩) rfl
    (Memory.ByteOrder.length_encode ..) fun t ht => .inr ?_
  simp only [clearStores, List.drop_succ_cons, List.drop_zero, List.mem_cons, List.not_mem_nil,
    or_false] at ht
  rcases ht with rfl | rfl | rfl <;> simp

/-- `accept` stores nothing outside of the address and its length, however long the address of the
peer is. -/
lemma contained_acceptStores (platform : Platform) (peer : Bytes) (m : ℕ → UInt8) :
    Contained (acceptStores platform peer (makeDefault platform m)) := by
  intro w hw
  simp only [acceptStores, List.mem_cons, List.not_mem_nil, or_false] at hw
  rcases hw with rfl | rfl
  · refine Memory.Store.within_of_le le_rfl ?_
    rw [yieldAddrlen_makeDefault, List.length_take]
    simp only [Member.offset, Member.size]
    omega
  · exact Memory.Store.within_of_le le_rfl (by simp)

/-- What is in neither of them stays as it is. -/
lemma accept_of_outside {x : ℕ} (hx : x < Member.addr.offset ∨
    Member.addrLen.offset + Member.addrLen.size ≤ x) :
    accept platform peer (makeDefault platform m) x = makeDefault platform m x := by
  refine Memory.run_of_not_covers fun s hs hcovers => ?_
  obtain ⟨w, hw, rfl⟩ := List.mem_map.mp hs
  obtain ⟨hle, hlt⟩ := contained_acceptStores platform peer m w hw x hcovers
  simp only [acceptStores, List.mem_cons, List.not_mem_nil, or_false] at hw
  rcases hw with rfl | rfl
  all_goals
    simp only [Member.offset, Member.size] at hle hlt hx
    omega

/-- A range of the address, after `accept`, holds what the peer has there. -/
lemma read_accept (hpeer : peer.length = 16) {i n : ℕ} (h : i + n ≤ 16) :
    Memory.read (accept platform peer (makeDefault platform m)) (Member.addr.offset + i) n =
      (peer.drop i).take n := by
  have hstores : (acceptStores platform peer (makeDefault platform m)).map MemberStore.store =
      [⟨Member.addr.offset, peer⟩,
        ⟨Member.addrLen.offset, platform.byteOrder.encode 4 peer.length⟩] := by
    simp [acceptStores, yieldAddrlen_makeDefault, ← hpeer]
  have hread : Memory.read (Memory.run (makeDefault platform m) [⟨Member.addr.offset, peer⟩,
        ⟨Member.addrLen.offset, platform.byteOrder.encode 4 peer.length⟩])
      (Member.addr.offset + i) n =
        (peer.drop (Member.addr.offset + i - Member.addr.offset)).take n := by
    refine Memory.read_run_of_last (i := 0) (s := ⟨Member.addr.offset, peer⟩) rfl
      (Nat.le_add_right _ _) (by simp only [hpeer]; omega) fun t ht => .inr ?_
    rw [List.mem_singleton.mp ht]
    simp only [Member.offset]
    omega
  rw [accept, run, hstores, hread, Nat.add_sub_cancel_left]

/-- The length, after `accept`, is the one of the peer's address. -/
lemma yieldAddrlen_accept (hpeer : peer.length < 2 ^ 32) :
    yieldAddrlen platform (accept platform peer m) = peer.length := by
  have hread : readMember (accept platform peer m) .addrLen =
      platform.byteOrder.encode 4 peer.length :=
    read_run (i := 1) (w := ⟨.addrLen, Member.addrLen.offset, _⟩) rfl
      (Memory.ByteOrder.length_encode ..) fun t ht => absurd ht List.not_mem_nil
  rw [yieldAddrlen, hread, Memory.ByteOrder.decode_encode _ hpeer]

/-- The protocol, after `accept`, is IPv4. -/
lemma getProtocol_accept : getProtocol platform (accept platform peer (makeDefault platform m)) =
    .ipv4 := by
  have hread : readMember (accept platform peer (makeDefault platform m)) .protocol =
      readMember (makeDefault platform m) .protocol :=
    Memory.read_congr fun x _ hx => accept_of_outside (.inl (by simpa using hx))
  rw [getProtocol, hread, read_protocol_makeDefault, Memory.ByteOrder.decode_encode _ (by decide)]
  rfl

/-- **What the server reads after `accept`** is the address and the port of the client. Let a client
be given the address that its `NetAddress` stands for. Whatever was in the memory of either before,
and whatever the order of bytes: what the client hands to the kernel has the format of a
`sockaddr_in`; when `accept` has filled in the server's `NetAddress`, `GetIp`, `GetPort` and
`YieldAddrlen` return what they return for the client's; and the rest of the server's memory is as
it was. -/
theorem accept_given (inet : Inet) (platform : Platform) (hip : inet.Canonical .ipv4 ip)
    (port : UInt16) (m m' : ℕ → UInt8) :
    let client := make inet platform ip port .ipv4 m
    let server := accept platform (given platform client) (makeDefault platform m')
    (∃ bs, inet.pton .ipv4 ip = some bs ∧ given platform client = sockaddr platform bs port) ∧
      getIp inet platform server = some ip ∧ getPort platform server = port ∧
      yieldAddrlen platform server = yieldAddrlen platform client ∧
      ∀ x, x < Member.addr.offset ∨ Member.addrLen.offset + Member.addrLen.size ≤ x →
        server x = makeDefault platform m' x := by
  intro client server
  obtain ⟨bs, hpton, hntop⟩ := inet.ntop_pton _ _ hip
  have hlength : yieldAddrlen platform client = 16 := yieldAddrlen_ipv4 hpton
  have hgiven : (given platform client).length = 16 := by rw [given, Memory.length_read, hlength]
  -- a range of the server's address is the same range of the client's
  have hrange : ∀ {i n : ℕ}, i + n ≤ 16 → Memory.read server (Member.addr.offset + i) n =
      Memory.read client (Member.addr.offset + i) n := fun h => by
    rw [read_accept hgiven h, given, Memory.take_drop_read (hlength ▸ h)]
  refine ⟨⟨bs, hpton, given_make hpton⟩, ?_, ?_, ?_, fun x hx => accept_of_outside hx⟩
  · rw [getIp, getProtocol_accept, hrange (by decide)]
    have hread : getIp inet platform client = some ip := getIp_make hip
    simpa only [getIp, client, getProtocol_make] using hread
  · rw [getPort, hrange (by decide)]
    exact getPort_make hpton
  · rw [yieldAddrlen_accept (by rw [hgiven]; decide), hgiven, hlength]

end Accept

/-- A client at the loopback address connects to a server. -/
theorem accept_given_loopback :
    knownInet.Canonical .ipv4 (bytes "127.0.0.1") ∧
      let client := make knownInet linux (bytes "127.0.0.1") 20080 .ipv4 fun _ => 7
      let server := accept linux (given linux client) (makeDefault linux fun _ => 9)
      given linux client = [2, 0, 78, 112, 127, 0, 0, 1, 0, 0, 0, 0, 0, 0, 0, 0] ∧
        getIp knownInet linux server = some (bytes "127.0.0.1") ∧ getPort linux server = 20080 := by
  have hip : knownInet.Canonical .ipv4 (bytes "127.0.0.1") := ⟨_, List.mem_cons_self⟩
  obtain ⟨-, hread, hport, -⟩ :=
    accept_given knownInet linux hip 20080 (fun _ => 7) fun _ => 9
  exact ⟨hip, by decide +kernel, hread, hport⟩

end NetAddress

end Icee
