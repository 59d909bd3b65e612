import Ragnet.Message.RoundTrip

/-!
# Messages with fewer system addresses

`ConnectionRequestAccepted` and `NewIncomingConnection` are written with twenty system addresses,
but some implementations send fewer.  The readers take the addresses to be over when 16 bytes are
left, which are the two times.  Behind an address that is not the last one there is always more,
since every address takes up at least seven bytes.
-/

namespace Ragnet

open Checked Wire

/-- The system addresses that start with the given ones; the others are the default. -/
def SystemAddresses.ofList (addresses : List SocketAddr) : SystemAddresses :=
  ⟨(addresses ++ defaultSystemAddresses.val).take 20, by
    rw [List.length_take, List.length_append, defaultSystemAddresses.property]
    omega⟩

/-- Each of the system addresses plain. -/
def SystemAddresses.plain (self : SystemAddresses) : SystemAddresses :=
  ⟨self.val.map SocketAddr.plain, by rw [List.length_map, self.property]⟩

/-- What two of the messages end with, for any number of system addresses. -/
def Trailer.shortened (addresses : List SocketAddr) (pingTime pongTime : Int64) : Bytes :=
  addresses.flatMap putAddr ++ writeInt64 pingTime ++ writeInt64 pongTime

/-- The message with any number of system addresses. -/
def ConnectionRequestAccepted.shortened (clientAddress : SocketAddr) (systemIndex : UInt16)
    (addresses : List SocketAddr) (pingTime pongTime : Int64) : Bytes :=
  [Id.connectionRequestAccepted] ++ putAddr clientAddress ++ writeUint16 systemIndex ++
    Trailer.shortened addresses pingTime pongTime

/-- The message with any number of system addresses. -/
def NewIncomingConnection.shortened (serverAddress : SocketAddr) (addresses : List SocketAddr)
    (pingTime pongTime : Int64) : Bytes :=
  [Id.newIncomingConnection] ++ putAddr serverAddress ++
    Trailer.shortened addresses pingTime pongTime

variable {addresses : List SocketAddr} {pingTime pongTime : Int64}

/-! ## How many bytes are left -/

theorem sizeofAddr_pos (addr : SocketAddr) : 0 < sizeofAddr addr := by
  cases addr with
  | v4 octets port => exact Nat.zero_lt_succ _
  | v6 octets port flowinfo scopeId => exact Nat.zero_lt_succ _

theorem length_shortened : (Trailer.shortened addresses pingTime pongTime).length =
    (addresses.map sizeofAddr).sum + 16 := by
  rw [Trailer.shortened, List.length_append, List.length_append, List.length_flatMap,
    length_writeInt64, length_writeInt64, Nat.add_assoc]
  simp only [length_putAddr]

/-- Sixteen bytes are left exactly behind the last address. -/
theorem length_shortened_eq_iff :
    (Trailer.shortened addresses pingTime pongTime).length = 16 ↔ addresses = [] := by
  rw [length_shortened]
  cases addresses with
  | nil => exact iff_of_true rfl rfl
  | cons addr addresses =>
      have hpos := sizeofAddr_pos addr
      refine iff_of_false (fun h ↦ ?_) (List.cons_ne_nil _ _)
      rw [List.map_cons, List.sum_cons] at h
      omega

theorem shortened_cons (addr : SocketAddr) :
    Trailer.shortened (addr :: addresses) pingTime pongTime =
      putAddr addr ++ Trailer.shortened addresses pingTime pongTime := by
  simp only [Trailer.shortened, List.flatMap_cons, List.append_assoc]

/-! ## What is read -/

variable (build : Build)

/-- The loop takes the addresses that there are, keeps the others as they are, and stops behind the
last one. -/
theorem readSystemAddresses_shortened {data p : Bytes} {kept : List SocketAddr} {offset : Nat}
    (hdata : data = p ++ Trailer.shortened addresses pingTime pongTime) (hp : p.length = offset)
    (hkept : addresses.length ≤ kept.length) :
    ∃ h, readSystemAddresses build data kept offset =
      .ok (⟨addresses.map SocketAddr.plain ++ kept.drop addresses.length, h⟩,
        offset + (addresses.map sizeofAddr).sum) := by
  have hlen : data.length = offset + ((addresses.map sizeofAddr).sum + 16) := by
    rw [hdata, List.length_append, hp, length_shortened]
  induction addresses generalizing kept p offset with
  | nil =>
      cases kept with
      | nil => exact ⟨rfl, rfl⟩
      | cons systemAddr kept =>
          refine ⟨rfl, ?_⟩
          -- only the two times are left
          have hleft : data.length - offset = 16 := by
            rw [hlen]
            exact Nat.add_sub_cancel_left ..
          rw [readSystemAddresses, sub_of_le build 64 (by omega), ok_bind, if_pos hleft]
          rfl
  | cons addr addresses ih =>
      obtain ⟨systemAddr, kept, rfl⟩ := List.exists_cons_of_length_pos
        ((Nat.zero_lt_succ _).trans_le hkept)
      have hkept' : addresses.length ≤ kept.length := Nat.le_of_succ_le_succ hkept
      rw [shortened_cons] at hdata
      rw [List.map_cons, List.sum_cons] at hlen
      have hpos := sizeofAddr_pos addr
      have hrest : data = (p ++ putAddr addr) ++
          Trailer.shortened addresses pingTime pongTime := by
        rw [hdata, List.append_assoc]
      have hoffset : (p ++ putAddr addr).length = offset + sizeofAddr addr := by
        rw [List.length_append, hp, length_putAddr]
      obtain ⟨h, hread⟩ := ih hrest hoffset hkept' (by omega)
      refine ⟨congrArg Nat.succ h, ?_⟩
      rw [readSystemAddresses, sub_of_le build 64 (by omega), ok_bind, if_neg (by omega),
        sliceFrom_field hdata hp, ok_bind, addrSize_putAddr, if_neg (by omega), readAddr_putAddr,
        ok_bind]
      dsimp only
      rw [hread, ok_bind, Nat.add_assoc]
      rfl

/-- The addresses that are taken and those that are kept. -/
theorem ofList_val (h : addresses.length ≤ 20) : (SystemAddresses.ofList addresses).val =
    addresses ++ defaultSystemAddresses.val.drop addresses.length := by
  change (addresses ++ List.replicate 20 SocketAddr.unspecified).take 20 =
    addresses ++ (List.replicate 20 SocketAddr.unspecified).drop addresses.length
  rw [List.take_append, List.take_of_length_le h, List.take_replicate, List.drop_replicate,
    Nat.min_eq_left (Nat.sub_le 20 _)]

/-- Twenty addresses leave no room for others. -/
theorem ofList_map_plain (m : SystemAddresses) :
    SystemAddresses.ofList (m.val.map SocketAddr.plain) = m.plain := by
  have hlen : (m.val.map SocketAddr.plain).length = 20 := by rw [List.length_map, m.property]
  refine Subtype.ext ?_
  rw [ofList_val hlen.le, hlen, SystemAddresses.plain]
  exact List.append_nil _

theorem Trailer.read_shortened {data p : Bytes} {offset : Nat}
    (hdata : data = p ++ shortened addresses pingTime pongTime) (hp : p.length = offset)
    (hle : addresses.length ≤ 20) :
    read build data offset =
      .ok ⟨SystemAddresses.ofList (addresses.map SocketAddr.plain), pingTime, pongTime⟩ := by
  obtain ⟨h, hread⟩ := readSystemAddresses_shortened build hdata hp
    (hle.trans_eq defaultSystemAddresses.property.symm)
  have hlen : data.length = offset + ((addresses.map sizeofAddr).sum + 16) := by
    rw [hdata, List.length_append, hp, length_shortened]
  have hfront : (p ++ addresses.flatMap putAddr).length =
      offset + (addresses.map sizeofAddr).sum := by
    rw [List.length_append, hp, List.length_flatMap]
    simp only [length_putAddr]
  have hping : loadInt64 data (offset + (addresses.map sizeofAddr).sum) = .ok pingTime :=
    loadInt64_field (q := writeInt64 pongTime) (by rw [hdata, shortened]; simp) hfront
  have hpong : loadInt64 data (offset + (addresses.map sizeofAddr).sum + 8) = .ok pongTime :=
    loadInt64_field (p := p ++ addresses.flatMap putAddr ++ writeInt64 pingTime) (q := [])
      (by rw [hdata, shortened]; simp) (by rw [List.length_append, hfront, length_writeInt64])
  have hkept : (⟨addresses.map SocketAddr.plain ++
      defaultSystemAddresses.val.drop addresses.length, h.trans defaultSystemAddresses.property⟩ :
        SystemAddresses) = SystemAddresses.ofList (addresses.map SocketAddr.plain) := by
    refine Subtype.ext ?_
    rw [ofList_val (by rwa [List.length_map]), List.length_map]
  rw [read, hread, ok_bind]
  dsimp only
  rw [sub_of_le build 64 (by omega), ok_bind, if_neg (by omega), hping, ok_bind, hpong, ok_bind,
    ← hkept]

theorem ConnectionRequestAccepted.read_shortened (clientAddress : SocketAddr)
    (systemIndex : UInt16) (hle : addresses.length ≤ 20) :
    read build (shortened clientAddress systemIndex addresses pingTime pongTime).tail =
      .ok ⟨clientAddress.plain, systemIndex,
        SystemAddresses.ofList (addresses.map SocketAddr.plain), pingTime, pongTime⟩ := by
  generalize hd : (shortened clientAddress systemIndex addresses pingTime pongTime).tail = data
  have hdata : data = putAddr clientAddress ++ (writeUint16 systemIndex ++
      Trailer.shortened addresses pingTime pongTime) := by
    rw [← hd]
    simp only [shortened, List.append_assoc]
    rfl
  have hlen : data.length = sizeofAddr clientAddress + 2 +
      (Trailer.shortened addresses pingTime pongTime).length := by
    rw [hdata, List.length_append, List.length_append, length_putAddr, length_writeUint16]
    omega
  have hindex : loadUInt16 data (sizeofAddr clientAddress) = .ok systemIndex :=
    loadUInt16_field hdata (length_putAddr clientAddress)
  have hfront : data = (putAddr clientAddress ++ writeUint16 systemIndex) ++
      Trailer.shortened addresses pingTime pongTime := by
    rw [hdata, List.append_assoc]
  have hoffset : (putAddr clientAddress ++ writeUint16 systemIndex).length =
      sizeofAddr clientAddress + 2 := by
    rw [List.length_append, length_putAddr, length_writeUint16]
  have htrailer := Trailer.read_shortened build hfront hoffset hle
  have hsize : addrSize data = sizeofAddr clientAddress := by rw [hdata, addrSize_putAddr]
  have haddr : readAddr data = .ok (clientAddress.plain, sizeofAddr clientAddress) := by
    rw [hdata, readAddr_putAddr]
  rw [read, hsize, if_neg (by omega), haddr, ok_bind]
  dsimp only
  rw [if_neg (by omega), hindex, ok_bind, htrailer, ok_bind]

theorem NewIncomingConnection.read_shortened (serverAddress : SocketAddr)
    (hle : addresses.length ≤ 20) :
    read build (shortened serverAddress addresses pingTime pongTime).tail =
      .ok ⟨serverAddress.plain, SystemAddresses.ofList (addresses.map SocketAddr.plain), pingTime,
        pongTime⟩ := by
  generalize hd : (shortened serverAddress addresses pingTime pongTime).tail = data
  have hdata : data = putAddr serverAddress ++
      Trailer.shortened addresses pingTime pongTime := by
    rw [← hd]
    simp only [shortened, List.append_assoc]
    rfl
  have hlen : sizeofAddr serverAddress ≤ data.length := by
    rw [hdata, List.length_append, length_putAddr]
    exact Nat.le_add_right _ _
  have htrailer := Trailer.read_shortened build hdata (length_putAddr serverAddress) hle
  have hsize : addrSize data = sizeofAddr serverAddress := by rw [hdata, addrSize_putAddr]
  have haddr : readAddr data = .ok (serverAddress.plain, sizeofAddr serverAddress) := by
    rw [hdata, readAddr_putAddr]
  rw [read, hsize, if_neg (by omega), haddr, ok_bind, htrailer, ok_bind]

/-! ## All twenty addresses -/

theorem ConnectionRequestAccepted.read_write (m : ConnectionRequestAccepted) :
    read build m.write.tail =
      .ok { m with
        clientAddress := m.clientAddress.plain
        systemAddresses := m.systemAddresses.plain } := by
  rw [← ofList_map_plain]
  exact read_shortened build m.clientAddress m.systemIndex m.systemAddresses.property.le

theorem NewIncomingConnection.read_write (m : NewIncomingConnection) :
    read build m.write.tail =
      .ok { m with
        serverAddress := m.serverAddress.plain
        systemAddresses := m.systemAddresses.plain } := by
  rw [← ofList_map_plain]
  exact read_shortened build m.serverAddress m.systemAddresses.property.le

/-! ## Fewer addresses -/

/-- **A shortened message is read to its end.**  With fewer than twenty system addresses, both
messages come back with these addresses in order, up to the flow information and the scope of an
IPv6 address, with defaults for the others and with both times.  What is left of the list has the
length by which the loop recognises its end exactly at its end. -/
theorem shortened_reads (addresses : List SocketAddr) (hlt : addresses.length < 20)
    (pingTime pongTime : Int64) :
    (∀ clientAddress systemIndex,
      ConnectionRequestAccepted.read build (ConnectionRequestAccepted.shortened clientAddress
          systemIndex addresses pingTime pongTime).tail =
        .ok ⟨clientAddress.plain, systemIndex,
          SystemAddresses.ofList (addresses.map SocketAddr.plain), pingTime, pongTime⟩) ∧
      (∀ serverAddress,
        NewIncomingConnection.read build (NewIncomingConnection.shortened serverAddress addresses
            pingTime pongTime).tail =
          .ok ⟨serverAddress.plain, SystemAddresses.ofList (addresses.map SocketAddr.plain),
            pingTime, pongTime⟩) ∧
        ∀ n ≤ addresses.length,
          (Trailer.shortened (addresses.drop n) pingTime pongTime).length = 16 ↔
            n = addresses.length := by
  refine ⟨fun clientAddress systemIndex ↦ ?_, fun serverAddress ↦ ?_, fun n hn ↦ ?_⟩
  · exact ConnectionRequestAccepted.read_shortened build clientAddress systemIndex hlt.le
  · exact NewIncomingConnection.read_shortened build serverAddress hlt.le
  · rw [length_shortened_eq_iff, List.drop_eq_nil_iff]
    exact ⟨fun h ↦ Nat.le_antisymm hn h, fun h ↦ h.ge⟩

/-- An IPv4 and an IPv6 address in front of the times. -/
theorem shortened_reads_two :
    let addresses := [SocketAddr.v4 ⟨[127, 0, 0, 1], rfl⟩ 19132,
      .v6 ⟨List.replicate 16 0, rfl⟩ 19133 0 0]
    NewIncomingConnection.read .debug
        (NewIncomingConnection.shortened .unspecified addresses 5 6).tail =
      .ok ⟨.unspecified, SystemAddresses.ofList addresses, 5, 6⟩ :=
  (shortened_reads .debug [.v4 ⟨[127, 0, 0, 1], rfl⟩ 19132,
    .v6 ⟨List.replicate 16 0, rfl⟩ 19133 0 0] (by decide) 5 6).2.1 .unspecified

/-- An IPv6 address with flow information comes back without it. -/
theorem shortened_loses_flowinfo :
    let addresses := [SocketAddr.v6 ⟨List.replicate 16 0, rfl⟩ 19133 1 0]
    NewIncomingConnection.read .debug
        (NewIncomingConnection.shortened .unspecified addresses 5 6).tail ≠
      .ok ⟨.unspecified, SystemAddresses.ofList addresses, 5, 6⟩ := by
  intro addresses h
  rw [NewIncomingConnection.read_shortened .debug .unspecified (by decide)] at h
  have hfirst := congrArg (fun m : NewIncomingConnection ↦ m.systemAddresses.val.head?)
    (Except.ok.inj h)
  exact absurd hfirst (by decide)

end Ragnet
